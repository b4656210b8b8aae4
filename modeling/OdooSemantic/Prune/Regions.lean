import Mathlib.Data.List.MinMax
import OdooSemantic.Lib.Lines
import OdooSemantic.Prune.Items
import OdooSemantic.Prune.Source

/-!
# The text of a method

The definitions of a method are cut out of their file by the line numbers of the parser.  The
parser ends a line at a newline or a return only, the cut is by `str.splitlines`.
-/

set_option autoImplicit false

namespace OdooSemantic.Prune

open Lib.Py Lib.Regex Lib.Runs Lib.Lines

structure Definition where
  name : String
  /-- The first `@`, or the keyword where there is no decorator. -/
  start : Nat
  keyword : Nat
  /-- The decorator expressions. -/
  decorators : List Nat
  /-- After the last character. -/
  stop : Nat
  keyword_in : start ≤ keyword ∧ keyword < stop
  decorators_in : ∀ offset ∈ decorators, start ≤ offset ∧ offset < stop

/-- `ast.parse` and `ast.walk` for function definitions. -/
structure PythonReader where
  parses : String → Bool
  definitions : String → List Definition

/-- `lineno` of an offset, and `end_lineno` of the last character. -/
def lineno (text : String) (offset : Nat) : Nat :=
  breaks pythonEnds (text.toList.take offset) + 1

/-- The place of an offset among the lines of `str.splitlines`, from one. -/
def splitLine (text : String) (offset : Nat) : Nat :=
  breaks splitEnds (text.toList.take offset) + 1

/-- `min([node.lineno] + [d.lineno for d in decorators])`. -/
def Definition.firstLine (text : String) (definition : Definition) : Nat :=
  (definition.decorators.map (lineno text)).foldl min (lineno text definition.keyword)

def Definition.last (definition : Definition) : Nat := definition.stop - 1

def Definition.lastLine (text : String) (definition : Definition) : Nat :=
  lineno text definition.last

section Regions
variable (tables : CharTables) (reader : PythonReader)

def definitionsOf (text name : String) : List Definition :=
  (reader.definitions text).filter (·.name == name)

inductive Cut where
  | whole
  | lines (first last : Nat)

/-- `"\n".join(lines[first - 1:last])`. -/
def Cut.text (text : String) : Cut → List Char
  | .whole => text.toList
  | .lines first last =>
      joinLines (((Lib.Lines.lines splitEnds text.toList).take last).drop (first - 1))

/-- `_function_spans(path, text)[name]`, and the whole file without one. -/
def fileCuts (text name : String) : List Cut :=
  if reader.parses text then
    let spans := (definitionsOf reader text name).map fun definition =>
      Cut.lines (definition.firstLine text) (definition.lastLine text)
    if spans.isEmpty then [.whole] else spans
  else [.whole]

def methodRequest (name : String) : Request :=
  { form := .method, ident := name, suffixes := some [".py"], files := none }

def regionCuts (source : ModuleSource) (name : String) : List (String × String × Cut) :=
  (source.find tables (methodRequest name).key).flatMap fun path =>
    match source.text? path with
    | none => []
    | some text => (fileCuts reader text name).map (path, text, ·)

def methodRegions (source : ModuleSource) (name : String) : List (List Char) :=
  (regionCuts tables reader source name).map fun region => region.2.2.text region.2.1

/-- `ident.rsplit(".", 1)[-1]`. -/
def lastPart (ident : String) : String :=
  match rpartition '.' ident with
  | none => ident
  | some parts => parts.2

/-- `_rel_present` of a relationship from a method to what its body uses: `USES_FIELD`,
`DEPENDS_ON_FIELD` and `USES_CORE_SYMBOL`; `some false` is judged gone. -/
def usesPresent (source : ModuleSource) (rel : StaleRel) : Option Bool :=
  match given rel.startName, rel.symbol with
  | some name, some ident =>
      some ((methodRegions tables reader source name).any
        (Lib.Regex.search (tokenPattern tables (lastPart ident))))
  | _, _ => none

theorem extraEnds_eq (char : Char) : (splitEnds char && !pythonEnds char) = extraEnds char := by
  cases extra : extraEnds char with
  | false =>
      rw [splitEnds, extra, Bool.or_false]
      cases pythonEnds char <;> rfl
  | true =>
      have apart : extraLineEnds.all (fun other => !pythonEnds other) = true := by decide
      have inner := List.all_eq_true.mp apart char (List.contains_iff_mem.mp extra)
      rw [Bool.not_eq_true'] at inner
      rw [splitEnds, extra, inner]
      rfl

theorem splitLine_eq (text : String) (offset : Nat) :
    splitLine text offset = lineno text offset + (text.toList.take offset).countP extraEnds := by
  have counted := @breaksFrom_extra splitEnds pythonEnds (by decide)
    (fun char isEnd => by rw [splitEnds, isEnd, Bool.true_or]) false (text.toList.take offset)
  simp only [extraEnds_eq] at counted
  rw [splitLine, lineno, breaks, counted, breaks]
  exact Nat.add_right_comm _ _ _

theorem lineno_mono (text : String) {first second : Nat} (le : first ≤ second) :
    lineno text first ≤ lineno text second :=
  Nat.succ_le_succ (breaks_take_mono pythonEnds text.toList le)

/-- No line ends for `str.splitlines` only before the offset. -/
def Unshifted (text : String) (offset : Nat) : Prop :=
  ∀ char ∈ text.toList.take offset, extraEnds char = false

instance (text : String) (offset : Nat) : Decidable (Unshifted text offset) :=
  List.decidableBAll _ _

variable {text : String} {source : ModuleSource} {cut : Cut} {definition : Definition}

theorem Unshifted.mono {first second : Nat} (unshifted : Unshifted text second)
    (le : first ≤ second) : Unshifted text first :=
  fun char listed => unshifted char ((List.take_prefix_take_left le).subset listed)

theorem unshifted_iff {offset : Nat} :
    Unshifted text offset ↔ splitLine text offset ≤ lineno text offset := by
  rw [splitLine_eq]
  have count : (text.toList.take offset).countP extraEnds = 0 ↔ Unshifted text offset := by
    rw [List.countP_eq_zero]
    simp only [Bool.not_eq_true]
    rfl
  rw [← count]
  omega

theorem Unshifted.same {offset : Nat} (unshifted : Unshifted text offset) :
    splitLine text offset = lineno text offset := by
  have le := unshifted_iff.mp unshifted
  rw [splitLine_eq] at le ⊢
  omega

def Cut.Holds (text : String) (definition : Definition) : Cut → Prop
  | .whole => True
  | .lines first last => ∀ offset, definition.start ≤ offset → offset < definition.stop →
      first ≤ splitLine text offset ∧ splitLine text offset ≤ last

def Mentions (text : String) (definition : Definition) (ident : String) : Prop :=
  ∃ before after, RunAt tables.word text.toList ident.toList before after ∧
    definition.start ≤ before.length ∧ before.length + ident.toList.length ≤ definition.stop

structure Complete (source : ModuleSource) (path text name : String) : Prop where
  regions : ∀ definition ∈ definitionsOf reader text name,
    ∃ cut, (path, text, cut) ∈ regionCuts tables reader source name ∧ cut.Holds text definition
  uses : ∀ definition ∈ definitionsOf reader text name, ∀ (rel : StaleRel) (ident : String),
    given rel.startName = some name → rel.symbol = some ident →
      Mentions tables text definition (lastPart ident) →
        usesPresent tables reader source rel ≠ some false

def Aligned (text name : String) : Prop :=
  ∀ definition ∈ definitionsOf reader text name,
    search (defPattern tables name) text.toList = true ∧
      (reader.parses text = true → Unshifted text definition.last ∧
        ∃ other ∈ definitionsOf reader text name,
          other.firstLine text ≤ lineno text definition.start ∧
            definition.lastLine text ≤ other.lastLine text)

theorem mem_find {path text name : String}
    (isText : source.text? path = some text) (python : endsWithAny path [".py"] = true) :
    path ∈ source.find tables (methodRequest name).key ↔
      search (defPattern tables name) text.toList = true := by
  rw [find_eq, ModuleSource.searchAll, List.mem_filter, mem_sortedSet]
  have shown : source.shows tables (methodRequest name).form (methodRequest name).ident path =
      search (defPattern tables name) text.toList := by
    rw [ModuleSource.shows, isText]
    rfl
  have suffix : hasSuffix (methodRequest name).suffixes path = true := python
  rw [shown, suffix]
  constructor
  · intro given
    simpa [inScope, methodRequest] using given.2
  · intro found
    refine ⟨ModuleSource.text?_paths isText, ?_⟩
    simpa [inScope, methodRequest] using found

theorem mem_regionCuts {path text name : String}
    (isText : source.text? path = some text) :
    (path, text, cut) ∈ regionCuts tables reader source name ↔
      path ∈ source.find tables (methodRequest name).key ∧ cut ∈ fileCuts reader text name := by
  constructor
  · intro listed
    obtain ⟨other, found, ofFile⟩ := List.mem_flatMap.mp listed
    cases isOther : source.text? other with
    | none =>
        rw [isOther] at ofFile
        cases ofFile
    | some content =>
        rw [isOther] at ofFile
        obtain ⟨part, partIn, same⟩ := List.mem_map.mp ofFile
        cases same
        exact ⟨found, partIn⟩
  · intro both
    refine List.mem_flatMap.mpr ⟨path, both.1, ?_⟩
    rw [isText]
    exact List.mem_map_of_mem both.2

theorem mem_fileCuts {text name : String}
    (listed : definition ∈ definitionsOf reader text name) :
    cut ∈ fileCuts reader text name ↔
      (reader.parses text = false ∧ cut = .whole) ∨
        (reader.parses text = true ∧ ∃ other ∈ definitionsOf reader text name,
          cut = .lines (other.firstLine text) (other.lastLine text)) := by
  rw [fileCuts]
  cases reader.parses text with
  | false => simp
  | true =>
      have nonempty : definitionsOf reader text name ≠ [] := List.ne_nil_of_mem listed
      have some_span : ((definitionsOf reader text name).map fun definition =>
          Cut.lines (definition.firstLine text) (definition.lastLine text)).isEmpty = false := by
        rw [List.isEmpty_map, List.isEmpty_eq_false_iff]
        exact nonempty
      simp only [if_true, some_span, Bool.false_eq_true, if_false, List.mem_map, false_and,
        false_or, true_and, Bool.true_eq_false]
      constructor
      · intro spans
        obtain ⟨other, otherIn, same⟩ := spans
        exact ⟨other, otherIn, same.symm⟩
      · intro spans
        obtain ⟨other, otherIn, same⟩ := spans
        exact ⟨other, otherIn, same.symm⟩

theorem last_definition {definitions : List Definition} (nonempty : definitions ≠ []) :
    ∃ final ∈ definitions, ∀ definition ∈ definitions, definition.last ≤ final.last := by
  cases found : definitions.argmax Definition.last with
  | none => exact absurd (List.argmax_eq_none.mp found) nonempty
  | some final =>
      exact ⟨final, List.argmax_mem found, fun _ listed => List.le_of_mem_argmax listed found⟩

theorem unshifted_of_holds {definition other : Definition}
    (holds : (Cut.lines (other.firstLine text) (other.lastLine text)).Holds text definition)
    (le : other.last ≤ definition.last) : Unshifted text definition.last := by
  have inside := definition.keyword_in
  have last := (holds definition.last (by rw [Definition.last]; omega)
    (by rw [Definition.last]; omega)).2
  exact unshifted_iff.mpr (last.trans (lineno_mono text le))

theorem holds_iff {definition other : Definition}
    (unshifted : Unshifted text definition.last) :
    (Cut.lines (other.firstLine text) (other.lastLine text)).Holds text definition ↔
      other.firstLine text ≤ lineno text definition.start ∧
        definition.lastLine text ≤ other.lastLine text := by
  have inside := definition.keyword_in
  have ordered : definition.start ≤ definition.last := by rw [Definition.last]; omega
  constructor
  · intro holds
    have atStart := (holds definition.start (Nat.le_refl _) (by omega)).1
    have atLast := (holds definition.last ordered (by rw [Definition.last]; omega)).2
    rw [(unshifted.mono ordered).same] at atStart
    rw [unshifted.same] at atLast
    exact ⟨atStart, atLast⟩
  · intro spans offset started before
    have toLast : offset ≤ definition.last := by rw [Definition.last]; omega
    rw [(unshifted.mono toLast).same]
    exact ⟨spans.1.trans (lineno_mono text started), (lineno_mono text toLast).trans spans.2⟩

theorem search_cut {text ident : String} {before after : List Char}
    (isRun : RunAt tables.word text.toList ident.toList before after)
    (inCut : ∀ first last, cut = .lines first last →
      first ≤ splitLine text before.length ∧ splitLine text before.length ≤ last) :
    search (tokenPattern tables ident) (cut.text text) = true := by
  cases cut with
  | whole => exact search_token tables isRun
  | lines first last =>
      obtain ⟨atLeast, atMost⟩ := inCut first last rfl
      obtain ⟨split, nonempty, all, bounded⟩ := isRun
      have row : splitLine text before.length = breaks splitEnds before + 1 := by
        rw [splitLine, split, List.append_assoc, List.take_left]
      rw [row] at atLeast atMost
      obtain ⟨left, right, isSuffix, isPrefix, line⟩ :=
        @lines_part splitEnds (by decide) (by decide) before _ after nonempty
          (fun char listed => ends_word tables (all char listed))
      have listed : left ++ ident.toList ++ right ∈
          ((Lib.Lines.lines splitEnds text.toList).take last).drop (first - 1) := by
        refine List.mem_of_getElem? (i := breaks splitEnds before - (first - 1)) ?_
        rw [List.getElem?_drop, List.getElem?_take_of_lt (by omega), split]
        rw [show first - 1 + (breaks splitEnds before - (first - 1)) = breaks splitEnds before by
          omega]
        exact line
      obtain ⟨lead, tail, joined, leadEnd, tailStart⟩ := joinLines_of_mem listed
      have newline : tables.word '\n' = false :=
        tables.space_word _ (tables.ends_space _ (by decide))
      refine @search_token tables _ _ (lead ++ left) (right ++ tail)
        ⟨?_, nonempty, all, ?_, ?_⟩
      · rw [Cut.text, joined]
        simp only [List.append_assoc]
      · intro char final
        rw [List.getLast?_append] at final
        cases there : left.getLast? with
        | none =>
            rw [there, Option.none_or] at final
            rw [leadEnd char final, newline]
        | some other =>
            rw [there, Option.some_or] at final
            cases final
            obtain ⟨front, parts⟩ := isSuffix
            refine bounded.left char ?_
            rw [← parts, List.getLast?_append, there]
            rfl
      · intro char initial
        rw [List.head?_append] at initial
        cases there : right.head? with
        | none =>
            rw [there, Option.none_or] at initial
            rw [tailStart char initial, newline]
        | some other =>
            rw [there, Option.some_or] at initial
            cases initial
            obtain ⟨back, parts⟩ := isPrefix
            refine bounded.right char ?_
            rw [← parts, List.head?_append, there]
            rfl

theorem aligned_of_regions {path text name : String}
    (isText : source.text? path = some text) (python : endsWithAny path [".py"] = true)
    (regions : ∀ definition ∈ definitionsOf reader text name,
      ∃ cut, (path, text, cut) ∈ regionCuts tables reader source name ∧
        cut.Holds text definition) :
    Aligned tables reader text name := by
  intro definition listed
  obtain ⟨cut, inRegions, holds⟩ := regions definition listed
  obtain ⟨isFound, isCut⟩ := (mem_regionCuts tables reader isText).mp inRegions
  refine ⟨(mem_find tables isText python).mp isFound, fun parses => ?_⟩
  obtain ⟨final, finalIn, latest⟩ := last_definition (List.ne_nil_of_mem listed)
  have finalAligned : Unshifted text final.last := by
    obtain ⟨finalCut, finalRegion, finalHolds⟩ := regions final finalIn
    have isFinalCut := ((mem_regionCuts tables reader isText).mp finalRegion).2
    obtain ⟨unparsed, -⟩ | ⟨-, other, otherIn, same⟩ := (mem_fileCuts reader finalIn).mp isFinalCut
    · rw [unparsed] at parses
      cases parses
    · rw [same] at finalHolds
      exact unshifted_of_holds finalHolds (latest other otherIn)
  have unshifted := finalAligned.mono (latest definition listed)
  refine ⟨unshifted, ?_⟩
  obtain ⟨unparsed, -⟩ | ⟨-, other, otherIn, same⟩ := (mem_fileCuts reader listed).mp isCut
  · rw [unparsed] at parses
    cases parses
  · rw [same] at holds
    exact ⟨other, otherIn, (holds_iff unshifted).mp holds⟩

theorem regions_of_aligned {path text name : String}
    (isText : source.text? path = some text) (python : endsWithAny path [".py"] = true)
    (aligned : Aligned tables reader text name)
    (listed : definition ∈ definitionsOf reader text name) :
    ∃ cut, (path, text, cut) ∈ regionCuts tables reader source name ∧
      cut.Holds text definition := by
  obtain ⟨found, whenParsed⟩ := aligned definition listed
  have isFound := (mem_find tables isText python).mpr found
  cases parses : reader.parses text with
  | false =>
      refine ⟨.whole, (mem_regionCuts tables reader isText).mpr ⟨isFound, ?_⟩, trivial⟩
      exact (mem_fileCuts reader listed).mpr (.inl ⟨parses, rfl⟩)
  | true =>
      obtain ⟨unshifted, other, otherIn, spans⟩ := whenParsed parses
      refine ⟨.lines (other.firstLine text) (other.lastLine text),
        (mem_regionCuts tables reader isText).mpr ⟨isFound, ?_⟩, (holds_iff unshifted).mpr spans⟩
      exact (mem_fileCuts reader listed).mpr (.inr ⟨parses, other, otherIn, rfl⟩)

theorem uses_of_region {path text name ident : String}
    {rel : StaleRel}
    (inRegions : (path, text, cut) ∈ regionCuts tables reader source name)
    (holds : cut.Holds text definition) (isStart : given rel.startName = some name)
    (isEnd : rel.symbol = some ident) (mentions : Mentions tables text definition (lastPart ident)) :
    usesPresent tables reader source rel = some true := by
  obtain ⟨before, after, isRun, started, stopped⟩ := mentions
  have found : search (tokenPattern tables (lastPart ident)) (cut.text text) = true := by
    refine search_cut tables isRun fun first last same => ?_
    rw [same] at holds
    have positive := List.length_pos_of_ne_nil isRun.nonempty
    exact holds before.length started (by omega)
  rw [usesPresent, isStart, isEnd]
  refine congrArg some (List.any_eq_true.mpr ⟨cut.text text, ?_, found⟩)
  exact List.mem_map.mpr ⟨(path, text, cut), inRegions, rfl⟩

/-- The regions are complete exactly where the definitions are aligned. -/
theorem regions_complete_iff (source : ModuleSource) (path text name : String)
    (isText : source.text? path = some text) (python : endsWithAny path [".py"] = true) :
    Complete tables reader source path text name ↔ Aligned tables reader text name := by
  constructor
  · intro complete
    exact aligned_of_regions tables reader isText python complete.regions
  · intro aligned
    refine ⟨fun definition => regions_of_aligned tables reader isText python aligned, ?_⟩
    intro definition listed rel ident isStart isEnd mentions
    obtain ⟨cut, inRegions, holds⟩ :=
      regions_of_aligned tables reader isText python aligned listed
    rw [uses_of_region tables reader inRegions holds isStart isEnd mentions]
    simp

end Regions

def plainText : String := "def f(self):\n    self.x\n"

def formFeedText : String := "\x0c\ndef f(self):\n    self.x\n"

def methodF (start : Nat) : Definition where
  name := "f"
  start := start
  keyword := start
  decorators := []
  stop := start + 23
  keyword_in := ⟨Nat.le_refl start, by omega⟩
  decorators_in := nofun

def sampleReader : PythonReader where
  parses _ := true
  definitions text :=
    if text = formFeedText then [methodF 2] else if text = plainText then [methodF 0] else []

def sampleSource : ModuleSource where
  module := "m"
  prefixes := ["m/"]
  available := true
  absentPrefixes := []
  files := [("m/models/a.py", plainText), ("m/models/b.py", formFeedText)]
  distinct := by decide

theorem regions_complete_plain :
    Complete asciiTables sampleReader sampleSource "m/models/a.py" plainText "f" := by
  refine (regions_complete_iff asciiTables sampleReader sampleSource "m/models/a.py" plainText "f"
    (by decide) (by decide)).mpr ?_
  intro definition listed
  have isMethod : definition = methodF 0 :=
    List.mem_singleton.mp (List.mem_filter.mp listed).1
  rw [isMethod] at listed ⊢
  exact ⟨by decide, fun _ => ⟨by decide, methodF 0, listed, by decide, by decide⟩⟩

def formFeedSource : ModuleSource where
  module := "m"
  prefixes := ["m/"]
  available := true
  absentPrefixes := []
  files := [("m/models/b.py", formFeedText)]
  distinct := by decide

def usesX : StaleRel where
  type := .usesField
  startName := some "f"
  startFile := none
  endLabels := [.field]
  endName := some "x"
  endXmlid := none
  endFile := none
  endQualifiedName := none
  endRecordXmlid := none
  twin := false
  endStatus := none

/-- The last line of the method is cut off and what it uses is judged gone. -/
theorem form_feed_cuts_method :
    ¬ Complete asciiTables sampleReader formFeedSource "m/models/b.py" formFeedText "f" ∧
      usesPresent asciiTables sampleReader formFeedSource usesX = some false := by
  constructor
  · intro complete
    have aligned := aligned_of_regions asciiTables sampleReader (by decide) (by decide)
      complete.regions
    have listed : methodF 2 ∈ definitionsOf sampleReader formFeedText "f" :=
      List.mem_filter.mpr ⟨List.mem_singleton_self _, rfl⟩
    have unshifted := ((aligned (methodF 2) listed).2 rfl).1
    exact absurd unshifted (by decide)
  · decide

end OdooSemantic.Prune
