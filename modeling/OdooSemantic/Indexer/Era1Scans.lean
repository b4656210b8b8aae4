import Mathlib.Data.List.Infix
import OdooSemantic.Lib.Nesting

/-!
# The bracket scans of the old-style parser

A scan walks over characters and counts one kind of bracket. A reference grammar cuts the text
into comments, strings and single characters; the scan ends at the bracket that closes the lexemes.
-/

set_option autoImplicit false

namespace OdooSemantic.Indexer.Era1Scans

open Lib.Nesting

def quoteChars : List Char := ['\x22', '\x27']

def skipString (quote : List Char) : List Char → List Char
  | [] => []
  | ch :: rest =>
      if ch = '\\' then
        match rest with
        | [] => []
        | _ :: after => skipString quote after
      else if quote.isPrefixOf (ch :: rest) then (ch :: rest).drop quote.length
      else skipString quote rest

theorem skipString_length (quote text : List Char) : (skipString quote text).length ≤ text.length := by
  fun_induction skipString quote text with
  | case1 => exact Nat.le_refl _
  | case2 => exact Nat.zero_le _
  | case3 after ih => simp only [List.length_cons]; omega
  | case4 => simp only [List.length_drop]; omega
  | case5 ch rest _ _ ih => simp only [List.length_cons]; omega

def seek (opening closing : Char) (depth : Int) : List Char → Option (List Char)
  | [] => none
  | ch :: rest =>
      if ch = '#' then seek opening closing depth (rest.dropWhile (· != '\n'))
      else if ch ∈ quoteChars then
        if [ch, ch].isPrefixOf rest then
          seek opening closing depth (skipString [ch, ch, ch] (rest.drop 2))
        else seek opening closing depth (skipString [ch] rest)
      else if ch = opening then seek opening closing (depth + 1) rest
      else if ch = closing then
        if depth - 1 = 0 then some (ch :: rest) else seek opening closing (depth - 1) rest
      else seek opening closing depth rest
  termination_by text => text.length
  decreasing_by
    · exact Nat.lt_succ_of_le (List.dropWhile_suffix _).length_le
    · exact Nat.lt_succ_of_le ((skipString_length _ _).trans (List.drop_suffix _ _).length_le)
    · exact Nat.lt_succ_of_le (skipString_length _ _)
    · exact Nat.lt_succ_self _
    · exact Nat.lt_succ_self _
    · exact Nat.lt_succ_self _

def stringAwareBraceScan (fragment : List Char) (openDepth : Int) : List Char :=
  match seek '{' '}' openDepth fragment with
  | none => []
  | some closed => fragment.take (fragment.length - closed.length)

def extractEra1FieldEntry (block : List Char) (matchStart : Nat) : List Char :=
  let entry := block.drop matchStart
  match entry.dropWhile (· != '(') with
  | [] => []
  | _ :: text =>
      match seek '(' ')' 1 text with
      | none => []
      | some closed => entry.take (entry.length - closed.length + 1)

/-- The text of a string up to its closing quote, or to the end of the file. -/
inductive Body (quote ending : List Char) : List Char → Prop
  | nothing : Body quote ending []
  | lone (unended : ending = []) : Body quote ending ['\\']
  | escaped (ch : Char) {rest : List Char} (body : Body quote ending rest) :
      Body quote ending ('\\' :: ch :: rest)
  | char {ch : Char} {rest : List Char} (plain : ch ≠ '\\')
      (inside : ¬ quote <+: ch :: (rest ++ ending)) (body : Body quote ending rest) :
      Body quote ending (ch :: rest)

/-- A lexeme and the text that follows it: three quotes in a row start a long string. -/
inductive Lexeme : List Char → List Char → Prop
  | plain {ch : Char} {rest : List Char} (noComment : ch ≠ '#') (noQuote : ch ∉ quoteChars) :
      Lexeme [ch] rest
  | comment {body rest : List Char} (oneLine : '\n' ∉ body)
      (ends : rest = [] ∨ ∃ after, rest = '\n' :: after) : Lexeme ('#' :: body) rest
  | short {quote : Char} {body rest : List Char} (isQuote : quote ∈ quoteChars)
      (isBody : Body [quote] [quote] body)
      (single : ¬ [quote, quote] <+: body ++ quote :: rest) :
      Lexeme (quote :: (body ++ [quote])) rest
  | long {quote : Char} {body rest : List Char} (isQuote : quote ∈ quoteChars)
      (isBody : Body [quote, quote, quote] [quote, quote, quote] body) :
      Lexeme (quote :: quote :: quote :: (body ++ [quote, quote, quote])) rest

/-- What is left at the end of a text: a string that is cut off. -/
inductive Unfinished : List Char → Prop
  | nothing : Unfinished []
  | short {quote : Char} {body : List Char} (isQuote : quote ∈ quoteChars)
      (isBody : Body [quote] [] body) (single : ¬ [quote, quote] <+: body) :
      Unfinished (quote :: body)
  | long {quote : Char} {body : List Char} (isQuote : quote ∈ quoteChars)
      (isBody : Body [quote, quote, quote] [] body) :
      Unfinished (quote :: quote :: quote :: body)

/-- The text is these lexemes with a rest that is cut off. -/
inductive Lexes : List Char → List (List Char) → List Char → Prop
  | finish {tail : List Char} (unfinished : Unfinished tail) : Lexes tail [] tail
  | next {lexeme rest tail : List Char} {lexemes : List (List Char)}
      (first : Lexeme lexeme rest) (others : Lexes rest lexemes tail) :
      Lexes (lexeme ++ rest) (lexeme :: lexemes) tail

def brackets : List (Char × Char) := [('(', ')'), ('[', ']'), ('{', '}')]

def Leaf (lexeme : List Char) : Prop :=
  ∀ pair ∈ brackets, lexeme ≠ [pair.1] ∧ lexeme ≠ [pair.2]

inductive Nested : List (List Char) → Prop
  | nothing : Nested []
  | leaf {lexeme : List Char} {rest : List (List Char)} (isLeaf : Leaf lexeme)
      (others : Nested rest) : Nested (lexeme :: rest)
  | group {pair : Char × Char} {inner rest : List (List Char)} (isPair : pair ∈ brackets)
      (inside : Nested inner) (others : Nested rest) :
      Nested ([pair.1] :: (inner ++ [pair.2] :: rest))

inductive Unclosed : List (List Char) → Prop
  | nested {inner : List (List Char)} (inside : Nested inner) : Unclosed inner
  | opened {pair : Char × Char} {inner rest : List (List Char)} (isPair : pair ∈ brackets)
      (inside : Nested inner) (others : Unclosed rest) : Unclosed (inner ++ [pair.1] :: rest)

section Strings
variable {quote : List Char} {text : List Char}

theorem prefix_of_append {body after : List Char} (long : quote.length ≤ body.length)
    (starts : quote <+: body ++ after) : quote <+: body :=
  List.prefix_of_prefix_length_le starts (List.prefix_append body after) long

theorem skipString_cons {ch : Char} {rest : List Char} (plain : ch ≠ '\\') :
    skipString quote (ch :: rest) =
      if quote.isPrefixOf (ch :: rest) then (ch :: rest).drop quote.length
      else skipString quote rest := by
  rw [skipString.eq_def]
  exact if_neg plain

theorem skipString_char {ch : Char} {rest : List Char} (plain : ch ≠ '\\')
    (inside : ¬ quote <+: ch :: rest) :
    skipString quote (ch :: rest) = skipString quote rest := by
  rw [skipString_cons plain, if_neg (by rwa [List.isPrefixOf_iff_prefix])]

/-- The loop stops right behind the closing quote. -/
theorem skipString_closed {first : Char} {others body : List Char} (after : List Char)
    (plain : first ≠ '\\') (isBody : Body (first :: others) (first :: others) body) :
    skipString (first :: others) (body ++ (first :: others) ++ after) = after := by
  induction isBody with
  | nothing =>
      have starts : (first :: others).isPrefixOf (first :: (others ++ after)) = true :=
        List.isPrefixOf_iff_prefix.mpr (List.prefix_append (first :: others) after)
      rw [List.nil_append, List.cons_append, skipString_cons plain, if_pos starts]
      exact List.drop_left
  | lone unended => cases unended
  | escaped ch body ih => exact ih
  | @char ch rest noEscape inside body ih =>
      rw [List.cons_append, List.cons_append, skipString_char noEscape, ih]
      intro starts
      rw [List.append_assoc, ← List.append_assoc, ← List.cons_append] at starts
      refine inside (prefix_of_append ?_ starts)
      simp only [List.length_cons, List.length_append]
      omega

theorem skipString_unended (isBody : Body quote [] text) : skipString quote text = [] := by
  induction isBody with
  | nothing | lone => rfl
  | escaped ch body ih => exact ih
  | @char ch rest plain inside body ih =>
      rw [List.append_nil] at inside
      rw [skipString_char plain inside, ih]

theorem body_cases (quote : List Char) : ∀ (length : Nat) (text : List Char),
    text.length ≤ length → Body quote [] text ∨
      ∃ body after, text = body ++ quote ++ after ∧ Body quote quote body := by
  intro length
  induction length with
  | zero =>
      intro text short
      rw [List.eq_nil_of_length_eq_zero (Nat.le_zero.mp short)]
      exact Or.inl .nothing
  | succ length ih =>
      intro text short
      cases text with
      | nil => exact Or.inl .nothing
      | cons ch rest =>
          rw [List.length_cons] at short
          by_cases escapes : ch = '\\'
          · subst escapes
            cases rest with
            | nil => exact Or.inl (.lone rfl)
            | cons next rest =>
                rw [List.length_cons] at short
                obtain unended | ⟨body, after, rfl, isBody⟩ := ih rest (by omega)
                · exact Or.inl (.escaped next unended)
                · exact Or.inr ⟨'\\' :: next :: body, after, rfl, .escaped next isBody⟩
          · by_cases ends : quote <+: ch :: rest
            · obtain ⟨after, same⟩ := ends
              exact Or.inr ⟨[], after, same.symm, .nothing⟩
            · obtain unended | ⟨body, after, rfl, isBody⟩ := ih rest (by omega)
              · refine Or.inl (.char escapes ?_ unended)
                rwa [List.append_nil]
              · refine Or.inr ⟨ch :: body, after, rfl, .char escapes (fun starts => ends ?_) isBody⟩
                exact starts.trans (List.prefix_append (ch :: (body ++ quote)) after)

end Strings

theorem lexes_of_text : ∀ (length : Nat) (text : List Char), text.length ≤ length →
    ∃ lexemes tail, Lexes text lexemes tail := by
  intro length
  induction length with
  | zero =>
      intro text short
      rw [List.eq_nil_of_length_eq_zero (Nat.le_zero.mp short)]
      exact ⟨[], [], .finish .nothing⟩
  | succ length ih =>
      have further : ∀ {lexeme rest : List Char}, Lexeme lexeme rest → rest.length ≤ length →
          ∃ lexemes tail, Lexes (lexeme ++ rest) lexemes tail := by
        intro lexeme rest first short
        obtain ⟨lexemes, tail, others⟩ := ih rest short
        exact ⟨lexeme :: lexemes, tail, .next first others⟩
      intro text short
      cases text with
      | nil => exact ⟨[], [], .finish .nothing⟩
      | cons ch rest =>
          rw [List.length_cons] at short
          by_cases isComment : ch = '#'
          · subst isComment
            have whole := List.takeWhile_append_dropWhile (p := (· != '\n')) (l := rest)
            have shorter := (List.dropWhile_suffix (· != '\n') (l := rest)).length_le
            rw [← whole, ← List.cons_append]
            refine further (.comment ?_ ?_) (by omega)
            · intro listed
              have holds := List.all_eq_true.mp (List.all_takeWhile (p := (· != '\n'))) _ listed
              simp at holds
            · cases left : rest.dropWhile (· != '\n') with
              | nil => exact Or.inl rfl
              | cons next after =>
                  have stops := List.head?_dropWhile_not (· != '\n') rest
                  rw [left] at stops
                  exact Or.inr ⟨after, by simpa using stops⟩
          · by_cases isQuote : ch ∈ quoteChars
            · by_cases tripled : [ch, ch] <+: rest
              · obtain ⟨text, rfl⟩ := tripled
                rw [List.length_append] at short
                obtain unended | ⟨body, after, rfl, isBody⟩ :=
                  body_cases [ch, ch, ch] text.length text (Nat.le_refl _)
                · exact ⟨[], _, .finish (.long isQuote unended)⟩
                · simp only [List.length_append] at short
                  have first : Lexeme _ after := .long isQuote isBody
                  have found := further first (by omega)
                  simpa using found
              · obtain unended | ⟨body, after, rfl, isBody⟩ :=
                  body_cases [ch] rest.length rest (Nat.le_refl _)
                · exact ⟨[], _, .finish (.short isQuote unended tripled)⟩
                · simp only [List.length_append] at short
                  rw [List.append_assoc, List.singleton_append] at tripled
                  have found := further (.short isQuote isBody tripled) (by omega)
                  simpa using found
            · exact further (.plain isComment isQuote) (by omega)

section Scan
variable {opening closing : Char} {depth : Int} {rest : List Char}

theorem seek_comment {body : List Char} (oneLine : '\n' ∉ body)
    (ends : rest = [] ∨ ∃ after, rest = '\n' :: after) :
    seek opening closing depth ('#' :: (body ++ rest)) = seek opening closing depth rest := by
  have skipped : (body ++ rest).dropWhile (· != '\n') = rest := by
    rw [List.dropWhile_append_of_pos]
    · obtain rfl | ⟨after, rfl⟩ := ends
      · rfl
      · exact List.dropWhile_cons_of_neg (by simp)
    · intro ch listed
      exact bne_iff_ne.mpr fun same => oneLine (same ▸ listed)
  rw [seek, if_pos rfl, skipped]

theorem noEscape_of_quote {quote : Char} (isQuote : quote ∈ quoteChars) :
    quote ≠ '#' ∧ quote ≠ '\\' := by
  simp only [quoteChars, List.mem_cons, List.not_mem_nil, or_false] at isQuote
  obtain rfl | rfl := isQuote <;> decide

theorem seek_short {quote : Char} {text : List Char} (isQuote : quote ∈ quoteChars)
    (single : ¬ [quote, quote] <+: text) :
    seek opening closing depth (quote :: text) =
      seek opening closing depth (skipString [quote] text) := by
  rw [seek, if_neg (noEscape_of_quote isQuote).1, if_pos isQuote,
    if_neg (by rwa [List.isPrefixOf_iff_prefix])]

theorem seek_long {quote : Char} (isQuote : quote ∈ quoteChars) (text : List Char) :
    seek opening closing depth (quote :: quote :: quote :: text) =
      seek opening closing depth (skipString [quote, quote, quote] text) := by
  have tripled : [quote, quote].isPrefixOf (quote :: quote :: text) = true :=
    List.isPrefixOf_iff_prefix.mpr ⟨text, rfl⟩
  rw [seek, if_neg (noEscape_of_quote isQuote).1, if_pos isQuote, if_pos tripled]
  rfl

theorem seek_unfinished {tail : List Char} (unfinished : Unfinished tail) :
    seek opening closing depth tail = none := by
  cases unfinished with
  | nothing => rw [seek]
  | short isQuote isBody single => rw [seek_short isQuote single, skipString_unended isBody, seek]
  | long isQuote isBody => rw [seek_long isQuote, skipString_unended isBody, seek]

theorem seek_lexeme {lexeme : List Char} (first : Lexeme lexeme rest)
    (noOpening : lexeme ≠ [opening]) (noClosing : lexeme ≠ [closing]) :
    seek opening closing depth (lexeme ++ rest) = seek opening closing depth rest := by
  cases first with
  | @plain ch rest noComment noQuote =>
      rw [List.singleton_append, seek, if_neg noComment, if_neg noQuote,
        if_neg fun same => noOpening (congrArg ([·]) same),
        if_neg fun same => noClosing (congrArg ([·]) same)]
  | comment oneLine ends => exact seek_comment oneLine ends
  | @short quote body rest isQuote isBody single =>
      have skipped := skipString_closed rest (noEscape_of_quote isQuote).2 isBody
      rw [List.append_assoc, List.singleton_append] at skipped
      rw [List.cons_append, List.append_assoc, List.singleton_append, seek_short isQuote single,
        skipped]
  | @long quote body rest isQuote isBody =>
      have skipped := skipString_closed rest (noEscape_of_quote isQuote).2 isBody
      simp only [List.cons_append]
      rw [seek_long isQuote, skipped]

theorem Lexes.whole {text tail : List Char} {lexemes : List (List Char)}
    (lexes : Lexes text lexemes tail) :
    text = lexemes.flatten ++ tail := by
  induction lexes with
  | finish => rfl
  | next first others ih => rw [List.flatten_cons, List.append_assoc, ← ih]

theorem seek_lexes (isPair : (opening, closing) ∈ brackets) {text tail : List Char}
    {lexemes : List (List Char)} (lexes : Lexes text lexemes tail) :
    seek opening closing depth text =
      (closeAt [opening] [closing] depth lexemes).map fun count =>
        closing :: ((lexemes.drop count).flatten ++ tail) := by
  have plain : (opening ≠ '#' ∧ opening ∉ quoteChars) ∧ (closing ≠ '#' ∧ closing ∉ quoteChars) ∧
      closing ≠ opening := by
    simp only [brackets, List.mem_cons, Prod.mk.injEq, List.not_mem_nil, or_false] at isPair
    obtain ⟨rfl, rfl⟩ | ⟨rfl, rfl⟩ | ⟨rfl, rfl⟩ := isPair <;> decide
  induction lexes generalizing depth with
  | finish unfinished => exact seek_unfinished unfinished
  | @next lexeme rest tail lexemes first others ih =>
      rw [closeAt]
      by_cases opens : lexeme = [opening]
      · subst opens
        rw [if_pos rfl, List.singleton_append, seek, if_neg plain.1.1, if_neg plain.1.2, if_pos rfl,
          ih, Option.map_map]
        rfl
      · rw [if_neg opens]
        by_cases closes : lexeme = [closing]
        · subst closes
          rw [if_pos rfl, List.singleton_append, seek, if_neg plain.2.1.1, if_neg plain.2.1.2,
            if_neg plain.2.2, if_pos rfl]
          by_cases last : depth - 1 = 0
          · rw [if_pos last, if_pos last, Option.map_some, others.whole]
            rfl
          · rw [if_neg last, if_neg last, ih, Option.map_map]
            rfl
        · rw [if_neg closes, seek_lexeme first opens closes, ih, Option.map_map]
          rfl

end Scan

section Brackets
variable {opening closing : Char} {lexemes inner rest : List (List Char)}

theorem balanced_append {left right : List (List Char)}
    (first : Balanced [opening] [closing] left) (second : Balanced [opening] [closing] right) :
    Balanced [opening] [closing] (left ++ right) := by
  induction first with
  | nothing => exact second
  | plain noOpening noClosing _ ih => exact .plain noOpening noClosing ih
  | @brackets inner rest inside _ _ ih =>
      rw [List.cons_append, List.append_assoc, List.cons_append]
      exact .brackets inside ih

theorem Nested.balanced (isPair : (opening, closing) ∈ brackets) (nested : Nested lexemes) :
    Balanced [opening] [closing] lexemes := by
  induction nested with
  | nothing => exact .nothing
  | leaf isLeaf _ ih => exact .plain (isLeaf _ isPair).1 (isLeaf _ isPair).2 ih
  | @group pair inner rest other _ _ ihInside ih =>
      have same_or_apart : (pair.1 = opening ∧ pair.2 = closing) ∨
          (pair.1 ≠ opening ∧ pair.1 ≠ closing ∧ pair.2 ≠ opening ∧ pair.2 ≠ closing) := by
        simp only [brackets, List.mem_cons, Prod.mk.injEq, List.not_mem_nil, or_false] at isPair other
        obtain ⟨rfl, rfl⟩ | ⟨rfl, rfl⟩ | ⟨rfl, rfl⟩ := isPair <;>
          obtain rfl | rfl | rfl := other <;> decide
      obtain ⟨rfl, rfl⟩ | ⟨first, second, third, fourth⟩ := same_or_apart
      · exact .brackets ihInside ih
      · refine .plain ?_ ?_ (balanced_append ihInside (.plain ?_ ?_ ih)) <;> simpa

theorem apart_of_pair (isPair : (opening, closing) ∈ brackets) : [opening] ≠ [closing] := by
  simp only [brackets, List.mem_cons, Prod.mk.injEq, List.not_mem_nil, or_false] at isPair
  obtain ⟨rfl, rfl⟩ | ⟨rfl, rfl⟩ | ⟨rfl, rfl⟩ := isPair <;> decide

theorem Unclosed.stays (isPair : (opening, closing) ∈ brackets) (unclosed : Unclosed lexemes) :
    ∀ depth : Int, 0 < depth → ∃ last, StaysOpen [opening] [closing] depth last lexemes := by
  have apart := apart_of_pair isPair
  induction unclosed with
  | nested inside =>
      exact fun depth above => ⟨depth, balanced_staysOpen apart (inside.balanced isPair) above⟩
  | @opened pair inner rest other inside _ ih =>
      intro depth above
      have up : 0 ≤ step [opening] [closing] [pair.1] := by
        simp only [brackets, List.mem_cons, Prod.mk.injEq, List.not_mem_nil, or_false] at isPair other
        obtain ⟨rfl, rfl⟩ | ⟨rfl, rfl⟩ | ⟨rfl, rfl⟩ := isPair <;>
          obtain rfl | rfl | rfl := other <;> decide
      obtain ⟨last, stays⟩ := ih (depth + step [opening] [closing] [pair.1]) (by omega)
      exact ⟨last, staysOpen_append (balanced_staysOpen apart (inside.balanced isPair) above)
        (staysOpen_cons.mpr ⟨above, stays⟩)⟩

end Brackets

section Results
variable {opening closing : Char} {depth : Int} {text tail : List Char}
  {lexemes inner rest : List (List Char)}

theorem Lexes.split (lexes : Lexes text (inner ++ [closing] :: rest) tail) :
    text = inner.flatten ++ closing :: (rest.flatten ++ tail) := by
  rw [lexes.whole, List.flatten_append, List.flatten_cons, List.append_assoc, List.append_assoc,
    List.singleton_append]

theorem seek_partner (isPair : (opening, closing) ∈ brackets) (above : 0 < depth)
    (lexes : Lexes text (inner ++ [closing] :: rest) tail)
    (stays : StaysOpen [opening] [closing] depth 1 inner) :
    seek opening closing depth text = some (closing :: (rest.flatten ++ tail)) := by
  rw [seek_lexes isPair lexes, (closeAt_append_iff (apart_of_pair isPair) above _ _).mpr stays,
    Option.map_some, List.drop_append, List.drop_of_length_le (Nat.le_succ _),
    Nat.add_sub_cancel_left]
  rfl

theorem seek_open (isPair : (opening, closing) ∈ brackets) (above : 0 < depth)
    (lexes : Lexes text lexemes tail)
    (stays : ∀ count, 0 < depth + net [opening] [closing] (lexemes.take count)) :
    seek opening closing depth text = none := by
  rw [seek_lexes isPair lexes, (closeAt_none_iff above _).mpr stays, Option.map_none]

theorem Nested.stays (isPair : (opening, closing) ∈ brackets) (nested : Nested inner) :
    StaysOpen [opening] [closing] 1 1 inner :=
  balanced_staysOpen (apart_of_pair isPair) (nested.balanced isPair) Int.one_pos

theorem stringAwareBraceScan_partner (above : 0 < depth)
    (lexes : Lexes text (inner ++ ['}'] :: rest) tail)
    (stays : StaysOpen ['{'] ['}'] depth 1 inner) :
    stringAwareBraceScan text depth = inner.flatten := by
  rw [stringAwareBraceScan, seek_partner (by decide) above lexes stays, lexes.split]
  exact List.take_left' (by rw [List.length_append, Nat.add_sub_cancel])

theorem stringAwareBraceScan_open (above : 0 < depth) (lexes : Lexes text lexemes tail)
    (stays : ∀ count, 0 < depth + net ['{'] ['}'] (lexemes.take count)) :
    stringAwareBraceScan text depth = [] := by
  rw [stringAwareBraceScan, seek_open (by decide) above lexes stays]

/-- `block.find('(', match_start)` passes over the head of the entry. -/
theorem dropWhile_head {head : List Char} (noOpening : '(' ∉ head) (text : List Char) :
    (head ++ text).dropWhile (· != '(') = text.dropWhile (· != '(') := by
  refine List.dropWhile_append_of_pos fun ch listed => ?_
  exact bne_iff_ne.mpr fun same => noOpening (same ▸ listed)

theorem extractEra1FieldEntry_eq {head : List Char} (noOpening : '(' ∉ head)
    (before text : List Char) :
    extractEra1FieldEntry (before ++ head ++ '(' :: text) before.length =
      match seek '(' ')' 1 text with
      | none => []
      | some closed => (head ++ '(' :: text).take
          ((head ++ '(' :: text).length - closed.length + 1) := by
  have found : (head ++ '(' :: text).dropWhile (· != '(') = '(' :: text := by
    rw [dropWhile_head noOpening]
    exact List.dropWhile_cons_of_neg (by simp)
  dsimp only [extractEra1FieldEntry]
  rw [List.append_assoc, List.drop_left, found]

/-- Both scans end at the partner of the bracket before the text, whatever strings, comments and
other brackets stand between, and find nothing where it stays open. -/
theorem scans_end_at_partner (text : List Char) :
    (∃ lexemes tail, Lexes text lexemes tail) ∧
      ∀ lexemes tail, Lexes text lexemes tail →
        (∀ depth : Int, 0 < depth →
          (∀ inner rest, lexemes = inner ++ ['}'] :: rest →
            StaysOpen ['{'] ['}'] depth 1 inner →
              stringAwareBraceScan text depth = inner.flatten) ∧
          ((∀ count, 0 < depth + net ['{'] ['}'] (lexemes.take count)) →
            stringAwareBraceScan text depth = [])) ∧
        (∀ inner rest, lexemes = inner ++ ['}'] :: rest → Nested inner →
          stringAwareBraceScan text 1 = inner.flatten) ∧
        (Unclosed lexemes → stringAwareBraceScan text 1 = []) ∧
        ∀ before head, '(' ∉ head →
          extractEra1FieldEntry (before ++ head) before.length = [] ∧
          (∀ inner rest, lexemes = inner ++ [')'] :: rest → Nested inner →
            extractEra1FieldEntry (before ++ head ++ '(' :: text) before.length =
              head ++ '(' :: inner.flatten ++ [')']) ∧
          (Unclosed lexemes →
            extractEra1FieldEntry (before ++ head ++ '(' :: text) before.length = []) := by
  refine ⟨lexes_of_text text.length text (Nat.le_refl _), fun lexemes tail lexes => ?_⟩
  refine ⟨fun depth above => ⟨?_, stringAwareBraceScan_open above lexes⟩, ?_, ?_, ?_⟩
  · rintro inner rest rfl stays
    exact stringAwareBraceScan_partner above lexes stays
  · rintro inner rest rfl nested
    exact stringAwareBraceScan_partner Int.one_pos lexes (nested.stays (by decide))
  · intro unclosed
    obtain ⟨last, above, -⟩ := unclosed.stays (show ('{', '}') ∈ brackets by decide) 1
      Int.one_pos
    exact stringAwareBraceScan_open Int.one_pos lexes above
  · intro before head noOpening
    refine ⟨?_, ?_, ?_⟩
    · have nothing := dropWhile_head noOpening []
      rw [List.append_nil] at nothing
      dsimp only [extractEra1FieldEntry]
      rw [List.drop_left, nothing]
      rfl
    · rintro inner rest rfl nested
      rw [extractEra1FieldEntry_eq noOpening,
        seek_partner (by decide) Int.one_pos lexes (nested.stays (by decide)), lexes.split]
      have whole : head ++ '(' :: (inner.flatten ++ ')' :: (rest.flatten ++ tail)) =
          (head ++ '(' :: inner.flatten ++ [')']) ++ (rest.flatten ++ tail) := by
        simp only [List.append_assoc, List.cons_append, List.nil_append]
      dsimp only
      rw [whole]
      refine List.take_left' ?_
      simp only [List.length_append, List.length_cons, List.length_nil]
      omega
    · intro unclosed
      obtain ⟨last, above, -⟩ := unclosed.stays (show ('(', ')') ∈ brackets by decide) 1
        Int.one_pos
      rw [extractEra1FieldEntry_eq noOpening, seek_open (by decide) Int.one_pos lexes above]

example : stringAwareBraceScan "'a': ['\x7d', \"\"\"\x7d\"\"\"], # \x7d\n \x7d, 'b': \x7b\x7d\x7d".toList 1 =
    "'a': ['\x7d', \"\"\"\x7d\"\"\"], # \x7d\n ".toList := by
  decide +kernel

end Results

end OdooSemantic.Indexer.Era1Scans
