import OdooSemantic.Lib.Py
import OdooSemantic.Lib.Split

/-!
# A failed propagation carried in a note

`repos.lifecycle_attention` is one text of messages.  The message of a propagation that was not
recorded lists the names the next run has to seed again in brackets, other messages are joined
before and after it, and two writers rewrite the note without reading the list.
-/

set_option autoImplicit false

namespace OdooSemantic.Indexer.Attention

open Lib.Py (sortedSet mem_sortedSet)
open Lib.Split

abbrev Text := List Char

/-- `PROPAGATION_UNRECORDED_MARK`. -/
def unrecordedMark : String := "cross-repo propagation not recorded"

/-- `PROPAGATION_RESEED_NAMES_MAX`. -/
def reseedNamesMax : Nat := 50

def segments (note : Text) : List Text := split ';' ' ' note

def markSegments (note : Text) : List Text :=
  (segments note).filter fun segment => unrecordedMark.toList <:+: segment

def openBracket : Text := "[reseed: ".toList

/-- The group of `_RESEED_RE.search`. -/
def reseedGroup : Text → Option Text
  | [] => none
  | char :: rest =>
      let inside := (char :: rest).drop openBracket.length
      if openBracket.isPrefixOf (char :: rest) && inside.contains ']' then
        some (inside.takeWhile (· != ']'))
      else reseedGroup rest

def headMark : Text := " at HEAD ".toList

def isHex (char : Char) : Bool := "0123456789abcdef".toList.contains char

/-- `[0-9a-f]+|none`. -/
def headText (text : Text) : Option Text :=
  if (text.takeWhile isHex).isEmpty then
    if "none".toList.isPrefixOf text then some "none".toList else none
  else some (text.takeWhile isHex)

/-- The group of `_FAILED_AT_RE.search`. -/
def failedAtGroup : Text → Option Text
  | [] => none
  | char :: rest =>
      if headMark.isPrefixOf (char :: rest) then
        (headText ((char :: rest).drop headMark.length)).or (failedAtGroup rest)
      else failedAtGroup rest

structure PropagationRetry where
  reseed : List String
  reseedAll : Bool
  failedAt : Option Text
  deriving DecidableEq

/-- The characters `str.strip` takes off. -/
structure Blanks where
  blank : Char → Bool
  letters : ∀ char : Char, char.isAlpha = true → blank char = false

section Reading
variable (space : Blanks)

def strip (text : Text) : Text :=
  ((text.dropWhile space.blank).reverse.dropWhile space.blank).reverse

def listsAll (group : Text) : Bool := strip space group == "all".toList

def listedNames (group : Text) : List String :=
  ((group.splitOn ',').filter fun name => !name.isEmpty).map String.ofList

def readSegment (retry : PropagationRetry) (segment : Text) : PropagationRetry :=
  let read := match reseedGroup segment with
    | none => retry
    | some group =>
        if listsAll space group then { retry with reseedAll := true }
        else { retry with reseed := retry.reseed ++ listedNames group }
  if read.failedAt.isNone then { read with failedAt := failedAtGroup segment } else read

def propagationRetry (note : Option Text) (ledger : Bool) : Option PropagationRetry :=
  let found := if ledger then markSegments (note.getD []) else []
  if found.isEmpty then none
  else some (found.foldl (readSegment space) ⟨[], false, none⟩)

end Reading

/-! ## Writing a message -/

/-- The arguments of `_propagation_attention`; `previous` is the note before. -/
structure Failure where
  previous : Text
  seed : List String
  keptHead : Option String
  head : Option String
  oneShot : List String
  retry : Option PropagationRetry

/-- `(head or 'none')[:12]`. -/
def shortHead (head : Option String) : String :=
  String.ofList (((head.filter (· ≠ "")).getD "none").toList.take 12)

namespace Failure
variable (failure : Failure)

def consecutive : Bool := decide (unrecordedMark.toList <:+: failure.previous)

/-- The failed run was itself one that seeded every present module. -/
def reseededAll : Bool := failure.retry.any (·.reseedAll)

def seedNames : String :=
  let names := sortedSet failure.seed
  OdooSemantic.Lib.Py.join ", " (names.take 10) ++
    if 10 < names.length then ", ... " ++ toString (names.length - 10) ++ " more" else ""

def what : String :=
  if failure.reseededAll then
    "all present modules (re-seeded after an unrecorded propagation at HEAD " ++
      String.ofList (((failure.retry.bind (·.failedAt)).filter (· ≠ [])).getD "none".toList) ++ ")"
  else
    toString (sortedSet failure.seed).length ++ " module(s) (" ++ failure.seedNames ++ ")"

/-- The message up to the bracket. -/
def lead : Text :=
  unrecordedMark.toList ++
    ((if failure.consecutive then " in two consecutive runs" else "") ++ " for " ++
      failure.what ++ " at HEAD " ++ shortHead failure.head ++ ": head_sha kept at " ++
      shortHead failure.keptHead).toList ++
    (" and the ledger presence head not advanced, so the next run repeats the " ++
      "propagation").toList

def carried : List String := sortedSet failure.oneShot

/-- The list stands for every present module. -/
def reseedsAll : Bool := failure.reseededAll || decide (reseedNamesMax < failure.carried.length)

/-- The names as they stand in the bracket. -/
def group : Text := [','].intercalate (failure.carried.map String.toList)

def bracket : Text :=
  if failure.reseedsAll then ' ' :: openBracket ++ "all".toList ++ [']']
  else if failure.carried.isEmpty then []
  else ' ' :: openBracket ++ failure.group ++ [']']

def line : Text := failure.lead ++ failure.bracket

end Failure

/-- `_propagation_attention`: the line, and whether it is the second in a row. -/
def propagationAttention (failure : Failure) : Text × Bool := (failure.line, failure.consecutive)

def appendMissing (parts more : List Text) : List Text :=
  more.foldl (fun parts text => if text ∈ parts then parts else parts ++ [text]) parts

/-- `flush_attention` for one repository; an empty text is refused and leaves the note. -/
def flushAttention (note : Text) (messages : List Text) : Text :=
  let parts := appendMissing ((segments note).filter fun part => !part.isEmpty) messages
  if (join ';' ' ' parts).isEmpty then note else join ';' ' ' parts

def carryPropagationMark (previous : Text) (parts : List Text) : List Text :=
  appendMissing parts (markSegments previous)

inductive Rewrite where
  | flush (messages : List Text)
  | carry (parts : List Text)

def Rewrite.texts : Rewrite → List Text
  | .flush messages => messages
  | .carry parts => parts

def rewrite (note : Text) : Rewrite → Text
  | .flush messages => flushAttention note messages
  | .carry parts => join ';' ' ' (carryPropagationMark note parts)

def noteAfter (failure : Failure) (before after : List Text) (rewrites : List Rewrite) : Text :=
  rewrites.foldl rewrite
    (join ';' ' ' (before ++ (propagationAttention failure).1 :: after))

theorem mark_nonempty : unrecordedMark.toList ≠ [] := by decide

theorem markSegments_blank : markSegments [] = [] := by
  rw [markSegments, segments, split, List.filter_cons, if_neg, List.filter_nil]
  rw [decide_eq_true_iff, List.infix_nil]
  exact mark_nonempty

theorem markSegments_join (parts : List Text) :
    markSegments (join ';' ' ' parts) = parts.flatMap markSegments := by
  by_cases none : parts = []
  · rw [none]
    exact markSegments_blank
  · rw [markSegments, segments, split_join (by decide) none, List.filter_flatMap]
    rfl

theorem markSegments_segment {note part : Text} (listed : part ∈ segments note) :
    markSegments part = if unrecordedMark.toList <:+: part then [part] else [] := by
  rw [markSegments, segments, split_free (mem_split listed).1, List.filter_cons, List.filter_nil]
  by_cases marked : unrecordedMark.toList <:+: part
  · rw [if_pos (decide_eq_true marked), if_pos marked]
  · rw [if_neg fun yes => marked (of_decide_eq_true yes), if_neg marked]

theorem mem_markSegments {note segment : Text} :
    segment ∈ markSegments note ↔
      segment ∈ segments note ∧ unrecordedMark.toList <:+: segment := by
  rw [markSegments, List.mem_filter, decide_eq_true_iff]

theorem mem_markSegments_part {note segment : Text} :
    segment ∈ markSegments note ↔ ∃ part ∈ segments note, segment ∈ markSegments part := by
  constructor
  · intro marked
    have inNote := mem_markSegments.mp marked
    refine ⟨segment, inNote.1, ?_⟩
    rw [markSegments_segment inNote.1, if_pos inNote.2]
    exact List.mem_singleton_self segment
  · intro some
    obtain ⟨part, listed, marked⟩ := some
    rw [markSegments_segment listed] at marked
    by_cases isMarked : unrecordedMark.toList <:+: part
    · rw [if_pos isMarked, List.mem_singleton] at marked
      rw [marked]
      exact mem_markSegments.mpr ⟨listed, isMarked⟩
    · rw [if_neg isMarked] at marked
      cases marked

theorem mem_appendMissing (more : List Text) : ∀ {parts : List Text} {text : Text},
    text ∈ appendMissing parts more ↔ text ∈ parts ∨ text ∈ more := by
  induction more with
  | nil =>
      intro parts text
      simp [appendMissing]
  | cons first rest ih =>
      intro parts text
      have step : appendMissing parts (first :: rest) =
          appendMissing (if first ∈ parts then parts else parts ++ [first]) rest := rfl
      rw [step, ih, List.mem_cons]
      by_cases known : first ∈ parts
      · rw [if_pos known]
        constructor
        · intro either
          obtain old | later := either
          · exact .inl old
          · exact .inr (.inr later)
        · intro either
          obtain old | same | later := either
          · exact .inl old
          · exact .inl (same ▸ known)
          · exact .inr later
      · rw [if_neg known, List.mem_append, List.mem_singleton, or_assoc]

theorem mem_markSegments_rewrite {note segment : Text} (change : Rewrite) :
    segment ∈ markSegments (rewrite note change) ↔
      segment ∈ markSegments note ∨ ∃ text ∈ change.texts, segment ∈ markSegments text := by
  cases change with
  | carry parts =>
      rw [rewrite, markSegments_join, List.mem_flatMap, carryPropagationMark]
      simp only [mem_appendMissing, Rewrite.texts]
      constructor
      · intro some
        obtain ⟨text, own | carried, marked⟩ := some
        · exact .inr ⟨text, own, marked⟩
        · exact .inl (mem_markSegments_part.mpr ⟨text, (mem_markSegments.mp carried).1, marked⟩)
      · intro either
        obtain kept | ⟨text, own, marked⟩ := either
        · refine ⟨segment, .inr kept, ?_⟩
          have inNote := mem_markSegments.mp kept
          rw [markSegments_segment inNote.1, if_pos inNote.2]
          exact List.mem_singleton_self segment
        · exact ⟨text, .inl own, marked⟩
  | flush messages =>
      rw [rewrite, flushAttention]
      generalize joined : appendMissing ((segments note).filter fun part => !part.isEmpty)
        messages = parts
      have whole : segment ∈ markSegments (join ';' ' ' parts) ↔
          segment ∈ markSegments note ∨ ∃ text ∈ messages, segment ∈ markSegments text := by
        rw [markSegments_join, List.mem_flatMap, ← joined, mem_markSegments_part]
        simp only [mem_appendMissing, List.mem_filter]
        constructor
        · intro some
          obtain ⟨text, ⟨inNote, -⟩ | own, marked⟩ := some
          · exact .inl ⟨text, inNote, marked⟩
          · exact .inr ⟨text, own, marked⟩
        · intro either
          obtain ⟨part, inNote, marked⟩ | ⟨text, own, marked⟩ := either
          · refine ⟨part, .inl ⟨inNote, ?_⟩, marked⟩
            rw [Bool.not_eq_true', List.isEmpty_eq_false_iff]
            intro blank
            rw [blank, markSegments_blank] at marked
            cases marked
          · exact ⟨text, .inr own, marked⟩
      by_cases refused : (join ';' ' ' parts).isEmpty = true
      · rw [if_pos refused]
        rw [List.isEmpty_iff.mp refused, markSegments_blank] at whole
        constructor
        · exact .inl
        · intro either
          exact absurd (whole.mpr either) List.not_mem_nil
      · rw [if_neg refused]
        exact whole

def otherTexts (before after : List Text) (rewrites : List Rewrite) : List Text :=
  before ++ after ++ rewrites.flatMap Rewrite.texts

theorem mem_markSegments_rewrites (rewrites : List Rewrite) : ∀ {note segment : Text},
    segment ∈ markSegments (rewrites.foldl rewrite note) ↔
      segment ∈ markSegments note ∨
        ∃ text ∈ rewrites.flatMap Rewrite.texts, segment ∈ markSegments text := by
  induction rewrites with
  | nil =>
      intro note segment
      simp
  | cons change rest ih =>
      intro note segment
      rw [List.foldl_cons, ih, mem_markSegments_rewrite, List.flatMap_cons]
      simp only [List.mem_append, or_and_right, exists_or, or_assoc]

theorem mem_markSegments_note {failure : Failure} {before after : List Text}
    {rewrites : List Rewrite} {segment : Text} :
    segment ∈ markSegments (noteAfter failure before after rewrites) ↔
      segment ∈ markSegments failure.line ∨
        ∃ text ∈ otherTexts before after rewrites, segment ∈ markSegments text := by
  rw [noteAfter, mem_markSegments_rewrites, markSegments_join, propagationAttention, otherTexts]
  simp only [List.mem_flatMap, List.mem_append, List.mem_cons]
  constructor
  · intro either
    obtain ⟨text, early | same | late, marked⟩ | ⟨text, own, marked⟩ := either
    · exact .inr ⟨text, .inl (.inl early), marked⟩
    · exact .inl (same ▸ marked)
    · exact .inr ⟨text, .inl (.inr late), marked⟩
    · exact .inr ⟨text, .inr own, marked⟩
  · intro either
    obtain marked | ⟨text, (early | late) | own, marked⟩ := either
    · exact .inl ⟨failure.line, .inr (.inl rfl), marked⟩
    · exact .inl ⟨text, .inl early, marked⟩
    · exact .inl ⟨text, .inr (.inr late), marked⟩
    · exact .inr ⟨text, own, marked⟩

section Carries
variable (space : Blanks)

def Carries (segment : Text) (name : String) : Prop :=
  ∃ group, reseedGroup segment = some group ∧ listsAll space group = false ∧
    name ∈ listedNames group

/-- The first bracket stands for every present module. -/
def CarriesAll (segment : Text) : Prop :=
  ∃ group, reseedGroup segment = some group ∧ listsAll space group = true

variable {space}

theorem readSegment_reseed (retry : PropagationRetry) (segment : Text) (name : String) :
    name ∈ (readSegment space retry segment).reseed ↔
      name ∈ retry.reseed ∨ Carries space segment name := by
  have kept : ∀ read : PropagationRetry, (if read.failedAt.isNone then
      { read with failedAt := failedAtGroup segment } else read).reseed = read.reseed := by
    intro read
    split <;> rfl
  rw [readSegment, kept, Carries]
  cases found : reseedGroup segment with
  | none => simp
  | some group =>
      cases all : listsAll space group with
      | true | false => simp [all]

theorem readSegment_all (retry : PropagationRetry) (segment : Text) :
    (readSegment space retry segment).reseedAll = true ↔
      retry.reseedAll = true ∨ CarriesAll space segment := by
  have kept : ∀ read : PropagationRetry, (if read.failedAt.isNone then
      { read with failedAt := failedAtGroup segment } else read).reseedAll = read.reseedAll := by
    intro read
    split <;> rfl
  rw [readSegment, kept, CarriesAll]
  cases found : reseedGroup segment with
  | none => simp
  | some group =>
      cases all : listsAll space group with
      | true | false => simp [all]

theorem readSegments (found : List Text) : ∀ retry : PropagationRetry,
    (∀ name, name ∈ (found.foldl (readSegment space) retry).reseed ↔
      name ∈ retry.reseed ∨ ∃ segment ∈ found, Carries space segment name) ∧
    ((found.foldl (readSegment space) retry).reseedAll = true ↔
      retry.reseedAll = true ∨ ∃ segment ∈ found, CarriesAll space segment) := by
  induction found with
  | nil =>
      intro retry
      simp
  | cons first rest ih =>
      intro retry
      obtain ⟨names, all⟩ := ih (readSegment space retry first)
      constructor
      · intro name
        rw [List.foldl_cons, names, readSegment_reseed]
        simp only [List.mem_cons, or_and_right, exists_or, exists_eq_left, or_assoc]
      · rw [List.foldl_cons, all, readSegment_all]
        simp only [List.mem_cons, or_and_right, exists_or, exists_eq_left, or_assoc]

theorem propagationRetry_some {note : Text} (marked : markSegments note ≠ []) :
    ∃ retry, propagationRetry space (some note) true = some retry ∧
      (∀ name, name ∈ retry.reseed ↔
        ∃ segment ∈ markSegments note, Carries space segment name) ∧
      (retry.reseedAll = true ↔ ∃ segment ∈ markSegments note, CarriesAll space segment) := by
  obtain ⟨names, all⟩ := @readSegments space (markSegments note) ⟨[], false, none⟩
  refine ⟨(markSegments note).foldl (readSegment space) ⟨[], false, none⟩, ?_, ?_, ?_⟩
  · rw [propagationRetry, if_pos rfl, Option.getD_some, if_neg]
    rw [List.isEmpty_iff]
    exact marked
  · intro name
    rw [names]
    simp
  · rw [all]
    simp

/-- Names that can be read back: not empty, and without a comma, a closing bracket or the
separator of messages. -/
structure Clean (name : String) : Prop where
  nonempty : name ≠ ""
  comma : ',' ∉ name.toList
  closing : ']' ∉ name.toList
  separator : Free ';' ' ' name.toList

theorem reseedGroup_inside {segment group : Text} (found : reseedGroup segment = some group) :
    ']' ∉ group ∧ group <:+: segment := by
  induction segment with
  | nil => cases found
  | cons char rest ih =>
      rw [reseedGroup] at found
      split at found
      · cases found
        constructor
        · intro listed
          have outside := List.all_eq_true.mp List.all_takeWhile _ listed
          rw [bne_self_eq_false] at outside
          cases outside
        · exact (List.takeWhile_prefix _).isInfix.trans (List.drop_suffix _ _).isInfix
      · obtain ⟨closed, inside⟩ := ih found
        exact ⟨closed, inside.trans (List.suffix_cons char rest).isInfix⟩

theorem clean_of_carries {text segment : Text} {name : String}
    (listed : segment ∈ markSegments text) (carries : Carries space segment name) :
    Clean name := by
  obtain ⟨group, found, -, named⟩ := carries
  obtain ⟨closed, inside⟩ := reseedGroup_inside found
  rw [listedNames, List.mem_map] at named
  obtain ⟨chars, kept, same⟩ := named
  obtain ⟨part, nonempty⟩ := List.mem_filter.mp kept
  obtain ⟨comma, inGroup⟩ := mem_splitOn part
  have isName : name.toList = chars := by rw [← same, String.toList_ofList]
  have free := (mem_split (mem_markSegments.mp listed).1).1
  refine ⟨?_, ?_, ?_, ?_⟩
  · intro empty
    rw [empty] at isName
    rw [← isName] at nonempty
    cases nonempty
  · rw [isName]
    exact comma
  · rw [isName]
    exact fun closing => closed (inGroup.subset closing)
  · rw [isName]
    exact fun sep => free (sep.trans (inGroup.trans inside))

/-- The words before the bracket, with the names and heads they show, hold no separator of
messages and no bracket of their own. -/
structure Failure.Intact (failure : Failure) : Prop where
  separator : Free ';' ' ' failure.lead
  bracket : ¬ openBracket <:+: failure.lead

theorem lead_last (failure : Failure) : failure.lead.getLast? = some 'n' := by
  have last : (" and the ledger presence head not advanced, so the next run repeats the " ++
      "propagation").toList.getLast? = some 'n' := by
    decide +kernel
  rw [Failure.lead, List.getLast?_append, last]
  rfl

theorem reseedGroup_skip {text : Text} (last : text.getLast? = some 'n')
    (none : ¬ openBracket <:+: text) (rest : Text) :
    reseedGroup (text ++ rest) = reseedGroup rest := by
  induction text with
  | nil => cases last
  | cons char more ih =>
      have starts : openBracket.isPrefixOf (char :: more ++ rest) = false := by
        rw [← Bool.not_eq_true, List.isPrefixOf_iff_prefix]
        intro front
        obtain whole | short := List.prefix_or_prefix_of_prefix front
          (List.prefix_append (char :: more) rest)
        · exact none whole.isInfix
        · have inBracket : 'n' ∈ openBracket :=
            short.subset (List.mem_of_getLast? last)
          exact absurd inBracket (by decide)
      have skip : reseedGroup (char :: more ++ rest) = reseedGroup (more ++ rest) := by
        rw [List.cons_append, reseedGroup, ← List.cons_append, starts, Bool.false_and,
          if_neg Bool.false_ne_true]
      rw [skip]
      cases more with
      | nil => rfl
      | cons other others =>
          rw [List.getLast?_cons_cons] at last
          exact ih last fun inside => none (inside.trans (List.suffix_cons char _).isInfix)

theorem reseedGroup_bracket {group : Text} (closed : ']' ∉ group) :
    reseedGroup (' ' :: openBracket ++ group ++ [']']) = some group := by
  have blank : openBracket.isPrefixOf (' ' :: (openBracket ++ (group ++ [']']))) = false := by
    have shape : openBracket = '[' :: "reseed: ".toList := by decide
    rw [← Bool.not_eq_true, List.isPrefixOf_iff_prefix, shape]
    intro front
    exact absurd (List.cons_prefix_cons.mp front).1 (by decide)
  have opens : openBracket.isPrefixOf (openBracket ++ (group ++ [']'])) = true :=
    List.isPrefixOf_iff_prefix.mpr (List.prefix_append _ _)
  have closes : (group ++ [']']).contains ']' = true :=
    List.contains_iff_mem.mpr (List.mem_append_right group (List.mem_singleton_self _))
  have inside : (group ++ [']']).takeWhile (· != ']') = group := by
    rw [List.takeWhile_append_of_pos]
    · rw [List.takeWhile_cons, if_neg (by simp), List.append_nil]
    · intro char listed
      rw [bne_iff_ne]
      intro same
      exact closed (same ▸ listed)
  have step : ∀ rest : Text, openBracket.isPrefixOf rest = true →
      (rest.drop openBracket.length).contains ']' = true →
      reseedGroup rest = some ((rest.drop openBracket.length).takeWhile (· != ']')) := by
    intro rest starts has
    cases rest with
    | nil => cases starts
    | cons char more => rw [reseedGroup, starts, has, Bool.true_and, if_pos rfl]
  rw [List.cons_append, List.cons_append, List.append_assoc, reseedGroup, blank, Bool.false_and,
    if_neg Bool.false_ne_true, step _ opens (by rw [List.drop_left]; exact closes),
    List.drop_left, inside]

/-- Names without separators, as they stand in the bracket. -/
theorem group_clean {names : List String} (clean : ∀ name ∈ names, Clean name) :
    Free ';' ' ' ([','].intercalate (names.map String.toList)) ∧
      ']' ∉ [','].intercalate (names.map String.toList) := by
  induction names with
  | nil => exact ⟨fun found => absurd (List.infix_nil.mp found) (List.cons_ne_nil _ _), by simp⟩
  | cons first rest ih =>
      have here := clean first List.mem_cons_self
      obtain ⟨free, closed⟩ := ih fun name listed => clean name (List.mem_cons_of_mem first listed)
      cases rest with
      | nil =>
          have alone : [','].intercalate ([first].map String.toList) = first.toList := by
            simp [List.intercalate]
          rw [alone]
          exact ⟨here.separator, here.closing⟩
      | cons second others =>
          have joined : [','].intercalate ((first :: second :: others).map String.toList) =
              first.toList ++ ([','] ++ [','].intercalate
                ((second :: others).map String.toList)) := by
            simp [List.intercalate]
          have comma : Free ';' ' ' [','] := by
            intro found
            have long := found.length_le
            simp only [List.length_cons, List.length_nil] at long
            omega
          rw [joined]
          constructor
          · exact here.separator.append (comma.append free (.inl (by decide))) (.inr (by simp))
          · rw [List.mem_append, List.mem_append, not_or, not_or]
            exact ⟨here.closing, by simp, closed⟩

theorem listedNames_group {names : List String} (clean : ∀ name ∈ names, Clean name)
    (some : names ≠ []) : listedNames ([','].intercalate (names.map String.toList)) = names := by
  have split : ([','].intercalate (names.map String.toList)).splitOn ',' =
      names.map String.toList := by
    refine List.splitOn_intercalate ',' ?_ ?_
    · intro chars listed
      obtain ⟨name, nameIn, same⟩ := List.mem_map.mp listed
      rw [← same]
      exact (clean name nameIn).comma
    · intro none
      exact some (List.map_eq_nil_iff.mp none)
  have kept : (names.map String.toList).filter (fun name => !name.isEmpty) =
      names.map String.toList := by
    refine List.filter_eq_self.mpr fun chars listed => ?_
    obtain ⟨name, nameIn, same⟩ := List.mem_map.mp listed
    rw [← same, Bool.not_eq_true', List.isEmpty_eq_false_iff]
    intro empty
    exact (clean name nameIn).nonempty (String.toList_eq_nil_iff.mp empty)
  rw [listedNames, split, kept, List.map_map]
  exact (List.map_congr_left fun name _ => String.ofList_toList).trans (List.map_id names)

theorem line_marked (failure : Failure) : markSegments failure.line ≠ [] := by
  have clean : ';' ∉ unrecordedMark.toList := by decide +kernel
  obtain ⟨rest, split⟩ : unrecordedMark.toList <+: failure.line := by
    rw [Failure.line, Failure.lead, List.append_assoc, List.append_assoc]
    exact List.prefix_append _ _
  obtain ⟨head, tail, parts, -⟩ := @split_cons _ _ ';' ' ' rest
  have whole : segments failure.line = (unrecordedMark.toList ++ head) :: tail := by
    rw [segments, ← split, split_lead clean, parts]
    rfl
  have marked : unrecordedMark.toList ++ head ∈ markSegments failure.line := by
    refine mem_markSegments.mpr ⟨?_, (List.prefix_append _ _).isInfix⟩
    rw [whole]
    exact List.mem_cons_self
  exact List.ne_nil_of_mem marked

def ReadBack (space : Blanks) (failure : Failure) (texts : List Text) : Prop :=
  if failure.reseedsAll then
    ∃ text ∈ texts, ∃ segment ∈ markSegments text, CarriesAll space segment
  else
    (∀ text ∈ texts, ∀ segment ∈ markSegments text, ¬ CarriesAll space segment ∧
      ∀ name, Carries space segment name → name ∈ failure.oneShot) ∧
    ∀ name ∈ failure.oneShot, ∃ text ∈ texts, ∃ segment ∈ markSegments text,
      Carries space segment name

/-- The next run is told to seed exactly the failure's names, or all. -/
def Recovered (space : Blanks) (failure : Failure) (before after : List Text)
    (rewrites : List Rewrite) : Prop :=
  ∃ retry, propagationRetry space (some (noteAfter failure before after rewrites)) true =
      some retry ∧
    if failure.reseedsAll then retry.reseedAll = true
    else retry.reseedAll = false ∧ ∀ name, name ∈ retry.reseed ↔ name ∈ failure.oneShot

theorem recovered_iff_readBack (failure : Failure) (before after : List Text)
    (rewrites : List Rewrite) : Recovered space failure before after rewrites ↔
      ReadBack space failure (failure.line :: otherTexts before after rewrites) := by
  have marks : ∀ segment, segment ∈ markSegments (noteAfter failure before after rewrites) ↔
      ∃ text ∈ failure.line :: otherTexts before after rewrites,
        segment ∈ markSegments text := by
    intro segment
    rw [mem_markSegments_note]
    simp only [List.mem_cons, or_and_right, exists_or, exists_eq_left]
  have marked : markSegments (noteAfter failure before after rewrites) ≠ [] := by
    obtain ⟨segment, listed⟩ := List.exists_mem_of_ne_nil _ (line_marked failure)
    exact List.ne_nil_of_mem ((marks segment).mpr ⟨_, List.mem_cons_self, listed⟩)
  obtain ⟨retry, answered, names, all⟩ := @propagationRetry_some space _ marked
  have given : Recovered space failure before after rewrites ↔
      if failure.reseedsAll then retry.reseedAll = true
      else retry.reseedAll = false ∧ ∀ name, name ∈ retry.reseed ↔ name ∈ failure.oneShot := by
    constructor
    · intro recovered
      obtain ⟨other, same, told⟩ := recovered
      rw [answered] at same
      cases same
      exact told
    · intro told
      exact ⟨retry, answered, told⟩
  have anyAll : retry.reseedAll = true ↔
      ∃ text ∈ failure.line :: otherTexts before after rewrites,
        ∃ segment ∈ markSegments text, CarriesAll space segment := by
    rw [all]
    constructor
    · intro some
      obtain ⟨segment, listed, carries⟩ := some
      obtain ⟨text, textIn, inText⟩ := (marks segment).mp listed
      exact ⟨text, textIn, segment, inText, carries⟩
    · intro some
      obtain ⟨text, textIn, segment, inText, carries⟩ := some
      exact ⟨segment, (marks segment).mpr ⟨text, textIn, inText⟩, carries⟩
  have anyName : ∀ name, name ∈ retry.reseed ↔
      ∃ text ∈ failure.line :: otherTexts before after rewrites,
        ∃ segment ∈ markSegments text, Carries space segment name := by
    intro name
    rw [names]
    constructor
    · intro some
      obtain ⟨segment, listed, carries⟩ := some
      obtain ⟨text, textIn, inText⟩ := (marks segment).mp listed
      exact ⟨text, textIn, segment, inText, carries⟩
    · intro some
      obtain ⟨text, textIn, segment, inText, carries⟩ := some
      exact ⟨segment, (marks segment).mpr ⟨text, textIn, inText⟩, carries⟩
  rw [given, ReadBack]
  by_cases every : failure.reseedsAll = true
  · rw [if_pos every, if_pos every, anyAll]
  · rw [if_neg every, if_neg every, ← Bool.not_eq_true, anyAll]
    constructor
    · intro told
      refine ⟨?_, fun name listed => (anyName name).mp ((told.2 name).mpr listed)⟩
      intro text textIn segment inText
      exact ⟨fun carries => told.1 ⟨text, textIn, segment, inText, carries⟩,
        fun name carries => (told.2 name).mp
          ((anyName name).mpr ⟨text, textIn, segment, inText, carries⟩)⟩
    · intro read
      constructor
      · intro some
        obtain ⟨text, textIn, segment, inText, carries⟩ := some
        exact (read.1 text textIn segment inText).1 carries
      · intro name
        rw [anyName]
        constructor
        · intro some
          obtain ⟨text, textIn, segment, inText, carries⟩ := some
          exact (read.1 text textIn segment inText).2 name carries
        · exact read.2 name

def Quiet (space : Blanks) (failure : Failure) (texts : List Text) : Prop :=
  ∀ text ∈ texts, ∀ segment ∈ markSegments text, ¬ CarriesAll space segment ∧
    ∀ name, Carries space segment name → name ∈ failure.oneShot

theorem line_segment {failure : Failure} (intact : failure.Intact)
    (clean : failure.reseedsAll = false → ∀ name ∈ failure.oneShot, Clean name) :
    markSegments failure.line = [failure.line] := by
  have last : failure.lead.getLast? ≠ some ';' := by
    rw [lead_last]
    decide
  have opening : Free ';' ' ' (' ' :: openBracket) := by
    unfold Free
    decide
  have closing : Free ';' ' ' [']'] := by
    unfold Free
    decide
  have bracketFree : Free ';' ' ' failure.bracket := by
    rw [Failure.bracket]
    by_cases every : failure.reseedsAll = true
    · rw [if_pos every]
      unfold Free
      decide
    · rw [if_neg every]
      have names := @group_clean failure.carried fun name listed =>
        clean (Bool.eq_false_of_not_eq_true every) name ((mem_sortedSet _ _).mp listed)
      by_cases none : failure.carried.isEmpty = true
      · rw [if_pos none]
        exact fun found => absurd (List.infix_nil.mp found) (List.cons_ne_nil _ _)
      · rw [if_neg none, List.append_assoc]
        exact opening.append (names.1.append closing (.inr (by simp))) (.inl (by decide))
  have free : Free ';' ' ' failure.line := intact.separator.append bracketFree (.inl last)
  have marked : unrecordedMark.toList <:+: failure.line := by
    rw [Failure.line, Failure.lead, List.append_assoc, List.append_assoc]
    exact (List.prefix_append _ _).isInfix
  rw [markSegments, segments, split_free free, List.filter_cons,
    if_pos (decide_eq_true marked), List.filter_nil]

theorem line_group {failure : Failure} (intact : failure.Intact) :
    reseedGroup failure.line = reseedGroup failure.bracket :=
  reseedGroup_skip (lead_last failure) intact.bracket failure.bracket

theorem listsAll_all : listsAll space "all".toList = true := by
  have first := space.letters 'a' (by decide)
  have last := space.letters 'l' (by decide)
  have letters : "all".toList = ['a', 'l', 'l'] := by decide
  rw [listsAll, strip, letters]
  simp [first, last]

theorem bracket_group {failure : Failure} (every : ¬ failure.reseedsAll = true)
    (clean : ∀ name ∈ failure.oneShot, Clean name) :
    reseedGroup failure.bracket =
      if failure.carried.isEmpty then none else some failure.group := by
  rw [Failure.bracket, if_neg every]
  by_cases none : failure.carried.isEmpty = true
  · rw [if_pos none, if_pos none]
    rfl
  · rw [if_neg none, if_neg none]
    exact reseedGroup_bracket (group_clean fun name listed =>
      clean name ((mem_sortedSet _ _).mp listed)).2

theorem readBack_of_intact {failure : Failure} (intact : failure.Intact) (texts : List Text) :
    ReadBack space failure (failure.line :: texts) ↔
      failure.reseedsAll = true ∨
        ((∀ name ∈ failure.oneShot, Clean name) ∧ listsAll space failure.group = false ∧
          Quiet space failure texts) := by
  rw [ReadBack]
  by_cases every : failure.reseedsAll = true
  · rw [if_pos every]
    refine iff_of_true ⟨failure.line, List.mem_cons_self, failure.line, ?_, "all".toList, ?_,
      listsAll_all⟩ (.inl every)
    · have never : failure.reseedsAll = false → ∀ name ∈ failure.oneShot, Clean name := by
        intro no
        rw [every] at no
        cases no
      rw [line_segment intact never]
      exact List.mem_singleton_self _
    · rw [line_group intact, Failure.bracket, if_pos every]
      exact reseedGroup_bracket (by decide)
  · rw [if_neg every, or_iff_right every]
    constructor
    · intro read
      have clean : ∀ name ∈ failure.oneShot, Clean name := by
        intro name listed
        obtain ⟨text, -, segment, inText, carries⟩ := read.2 name listed
        exact clean_of_carries inText carries
      have alone := line_segment intact fun _ => clean
      refine ⟨clean, ?_, fun text textIn => read.1 text (List.mem_cons_of_mem _ textIn)⟩
      by_contra all
      have isAll := Bool.eq_true_of_not_eq_false all
      have some : ¬ failure.carried.isEmpty = true := by
        intro none
        rw [Failure.group, List.isEmpty_iff.mp none] at isAll
        cases isAll
      refine (read.1 failure.line List.mem_cons_self failure.line ?_).1
        ⟨failure.group, ?_, isAll⟩
      · rw [alone]
        exact List.mem_singleton_self _
      · rw [line_group intact, bracket_group every clean, if_neg some]
    · intro given
      obtain ⟨clean, notAll, quiet⟩ := given
      have alone := line_segment intact fun _ => clean
      have inLine : ∀ name, Carries space failure.line name ↔ name ∈ failure.oneShot := by
        intro name
        rw [Carries, line_group intact, bracket_group every clean]
        by_cases none : failure.carried.isEmpty = true
        · rw [if_pos none, ← mem_sortedSet, ← Failure.carried, List.isEmpty_iff.mp none]
          simp
        · have carriedClean : ∀ one ∈ failure.carried, Clean one :=
            fun one listed => clean one ((mem_sortedSet _ _).mp listed)
          have names : listedNames failure.group = failure.carried :=
            listedNames_group carriedClean fun empty => none (List.isEmpty_iff.mpr empty)
          rw [if_neg none, ← mem_sortedSet, ← Failure.carried]
          constructor
          · intro some
            obtain ⟨group, same, -, named⟩ := some
            cases same
            rw [names] at named
            exact named
          · intro listed
            refine ⟨failure.group, rfl, notAll, ?_⟩
            rw [names]
            exact listed
      have lineNotAll : ¬ CarriesAll space failure.line := by
        intro all
        obtain ⟨group, found, isAll⟩ := all
        rw [line_group intact, bracket_group every clean] at found
        by_cases none : failure.carried.isEmpty = true
        · rw [if_pos none] at found
          cases found
        · rw [if_neg none] at found
          cases found
          rw [notAll] at isAll
          cases isAll
      constructor
      · intro text textIn segment inText
        obtain same | other := List.mem_cons.mp textIn
        · rw [same, alone, List.mem_singleton] at inText
          rw [inText]
          exact ⟨lineNotAll, fun name carries => (inLine name).mp carries⟩
        · exact quiet text other segment inText
      · intro name listed
        refine ⟨failure.line, List.mem_cons_self, failure.line, ?_, (inLine name).mpr listed⟩
        rw [alone]
        exact List.mem_singleton_self _

/-- Whatever the message, the other texts and the rewrites are: with an intact message the
names come back exactly when they can be carried, do not read as all, and the other texts carry
no others; with a message that is not, when what is left of it happens to read as the names. -/
theorem recovered_iff (space : Blanks) (failure : Failure) (before after : List Text)
    (rewrites : List Rewrite) : Recovered space failure before after rewrites ↔
      (failure.Intact ∧ (failure.reseedsAll = true ∨
        ((∀ name ∈ failure.oneShot, Clean name) ∧ listsAll space failure.group = false ∧
          Quiet space failure (otherTexts before after rewrites)))) ∨
      (¬ failure.Intact ∧
        ReadBack space failure (failure.line :: otherTexts before after rewrites)) := by
  rw [recovered_iff_readBack]
  by_cases intact : failure.Intact
  · rw [readBack_of_intact intact]
    constructor
    · intro read
      exact .inl ⟨intact, read⟩
    · intro either
      obtain ⟨-, read⟩ | ⟨broken, -⟩ := either
      · exact read
      · exact absurd intact broken
  · constructor
    · intro read
      exact .inr ⟨intact, read⟩
    · intro either
      obtain ⟨whole, -⟩ | ⟨-, read⟩ := either
      · exact absurd whole intact
      · exact read

end Carries

/-- The ASCII part of what `str.strip` takes off. -/
def asciiBlank (char : Char) : Bool :=
  char == ' ' || char == '\t' || char == '\n' || char == '\r'

theorem asciiBlank_letter (char : Char) (letter : char.isAlpha = true) :
    asciiBlank char = false := by
  cases blank : asciiBlank char with
  | false => rfl
  | true =>
    simp only [asciiBlank, Bool.or_eq_true, beq_iff_eq] at blank
    obtain ((same | same) | same) | same := blank
    all_goals
      rw [same] at letter
      revert letter
      decide

def asciiBlanks : Blanks where
  blank := asciiBlank
  letters := asciiBlank_letter

/-- A parser gap closed in the module `all` of a full run. -/
def allFailure : Failure where
  previous := []
  seed := ["all"]
  keptHead := some "aaaaaaaaaaaaaaaa"
  head := some "bbbbbbbbbbbbbbbb"
  oneShot := ["all"]
  retry := none

theorem module_all_reseeds_everything : ¬ Recovered asciiBlanks allFailure [] [] [] := by
  intro recovered
  obtain ⟨retry, answered, told⟩ := recovered
  have answer : propagationRetry asciiBlanks (some (noteAfter allFailure [] [] [])) true =
      some ⟨[], true, some "bbbbbbbbbbbb".toList⟩ := by
    decide +kernel
  have one : allFailure.reseedsAll = false := by decide +kernel
  rw [answer] at answered
  cases answered
  rw [one, if_neg Bool.false_ne_true] at told
  cases told.1

end OdooSemantic.Indexer.Attention
