import OdooSemantic.Lib.Lines
import OdooSemantic.Lib.Py
import OdooSemantic.Prune.Patterns

/-!
# The modules a diff changes

Each line of `git diff --name-only` is read as a path and leads to the closest directory with
a manifest.  git prints a name with an unusual character in quotes, and a renamed file under
its new name only.
-/

set_option autoImplicit false

namespace OdooSemantic.Indexer.ChangedModules

open Lib.Lines Lib.Runs
open Lib.Py (contains_eq_false_iff)
open Prune (splitEnds pythonEnds extraEnds extraLineEnds)

/-- A path by its parts, the innermost first, so that `parent` is the tail. -/
abbrev Dir := List String

/-- A file below the repository root. -/
structure FilePath where
  parts : Dir
  nonempty : parts ≠ []
  clean : ∀ part ∈ parts, part ≠ "" ∧ part ≠ "." ∧ '/' ∉ part.toList

def FilePath.text (file : FilePath) : List Char :=
  ['/'].intercalate (file.parts.reverse.map String.toList)

def FilePath.dir (file : FilePath) : Dir := file.parts.tail

/-- `Path(line)` of a relative path. -/
def pathOf (line : List Char) : Dir :=
  (((runs (· != '/') line).filter (· != ['.'])).map String.ofList).reverse

inductive Change where
  | written (file : FilePath)
  | deleted (file : FilePath)
  | renamed (old new : FilePath)

/-- The files that are not what they were. -/
def Change.touched : Change → List FilePath
  | .written file => [file]
  | .deleted file => [file]
  | .renamed old new => [old, new]

/-- The name that `--name-only` gives. -/
def Change.listed : Change → FilePath
  | .written file => file
  | .deleted file => file
  | .renamed _ new => new

def quoteChar : Char := Char.ofNat 34

/-- What git prints as it is. -/
def plain (char : Char) : Bool :=
  decide (0x20 ≤ char.toNat) && decide (char.toNat ≤ 0x7e) && char != quoteChar && char != '\\'

def namedEscapes : List (Char × Char) :=
  [(Char.ofNat 7, 'a'), (Char.ofNat 8, 'b'), (Char.ofNat 9, 't'), (Char.ofNat 10, 'n'),
    (Char.ofNat 11, 'v'), (Char.ofNat 12, 'f'), (Char.ofNat 13, 'r'), (quoteChar, quoteChar),
    ('\\', '\\')]

def octalDigit (value : Nat) : Char := Char.ofNat (0x30 + value % 8)

def octal (byte : UInt8) : List Char :=
  ['\\', octalDigit (byte.toNat / 64), octalDigit (byte.toNat / 8), octalDigit byte.toNat]

def escape (char : Char) : List Char :=
  if plain char then [char]
  else
    match namedEscapes.lookup char with
    | some letter => ['\\', letter]
    | none => (String.utf8EncodeChar char).flatMap octal

def quoted (name : List Char) : List Char := quoteChar :: name.flatMap escape ++ [quoteChar]

def printName (name : List Char) : List Char := if name.all plain then name else quoted name

/-- The output of `git diff --name-only`. -/
def stdout (changes : List Change) : List Char :=
  changes.flatMap fun change => printName change.listed.text ++ ['\n']

def manifestNames : List String := ["__manifest__.py", "__openerp__.py"]

/-- `isFile` is asked of paths below the root. -/
structure Worktree where
  repoPath : Dir
  isFile : Dir → Bool

section Tree
variable (tree : Worktree)

def Worktree.hasManifest (dir : Dir) : Bool :=
  manifestNames.any fun manifest => tree.isFile (manifest :: dir)

/-- The walk up from a directory; it ends below the root. -/
def closestManifest : Dir → Option Dir
  | [] => none
  | part :: above =>
      if tree.hasManifest (part :: above) then some (part :: above) else closestManifest above

/-- A printed line has no other blank than the space. -/
def changedFiles (output : List Char) : List (List Char) :=
  (lines splitEnds output).filter fun line => line.any fun char => !char.isWhitespace

/-- `none` is a diff that git fails on. -/
def computeChangedModulePaths (diff : Option (List Change)) : List Dir :=
  match diff with
  | none => []
  | some changes =>
      (changedFiles (stdout changes)).filterMap fun line =>
        closestManifest tree (pathOf line).tail

structure ModuleInfo where
  dir : Dir
  manifest : tree.hasManifest dir = true

variable {tree}

def ModuleInfo.path (module : ModuleInfo tree) : Dir := module.dir ++ tree.repoPath

def filterModulesByChanged (modules : List (String × ModuleInfo tree))
    (changedModulePaths : List Dir) : List (String × ModuleInfo tree) :=
  modules.filter fun item => item.2.path ∈ changedModulePaths

/-- `str(repo_path / rel)` of the changed directories. -/
def changedAbsPaths (tree : Worktree) (diff : Option (List Change)) : List Dir :=
  (computeChangedModulePaths tree diff).map fun rel => rel ++ tree.repoPath

abbrev Scan (tree : Worktree) := List (String × List (String × ModuleInfo tree))

def modulesChangedBetween (scan : Scan tree) (diff : Option (List Change)) : List String :=
  scan.flatMap fun item =>
    (filterModulesByChanged item.2 (changedAbsPaths tree diff)).map Prod.fst

end Tree

def Owns (tree : Worktree) (dir inside : Dir) : Prop :=
  ∃ between, inside = between ++ dir ∧
    ∀ deeper, deeper <:+ between → deeper ≠ [] → tree.hasManifest (deeper ++ dir) = false

section Owns
variable {tree : Worktree}

theorem owns_self (dir : Dir) : Owns tree dir dir := by
  refine ⟨[], rfl, ?_⟩
  intro deeper short some
  exact absurd (List.suffix_nil.mp short) some

theorem owns_cons {dir above : Dir} {part : String} :
    Owns tree dir (part :: above) ↔
      dir = part :: above ∨ (Owns tree dir above ∧ tree.hasManifest (part :: above) = false) := by
  constructor
  · intro owns
    obtain ⟨between, split, free⟩ := owns
    cases between with
    | nil => exact .inl split.symm
    | cons first rest =>
        obtain ⟨same, restSplit⟩ := List.cons_eq_cons.mp split
        refine .inr ⟨⟨rest, restSplit, ?_⟩, ?_⟩
        · intro deeper short some
          exact free deeper (short.trans (List.suffix_cons first rest)) some
        · have whole := free (first :: rest) (List.suffix_refl _) (List.cons_ne_nil _ _)
          rw [split]
          exact whole
  · intro either
    obtain same | ⟨⟨between, split, free⟩, bare⟩ := either
    · rw [same]
      exact owns_self (part :: above)
    · refine ⟨part :: between, by rw [split, List.cons_append], ?_⟩
      intro deeper short some
      obtain whole | inner := List.suffix_cons_iff.mp short
      · rw [whole, List.cons_append, ← split]
        exact bare
      · exact free deeper inner some

theorem closestManifest_iff {inside dir : Dir} (manifest : tree.hasManifest dir = true) :
    closestManifest tree inside = some dir ↔ dir ≠ [] ∧ Owns tree dir inside := by
  induction inside with
  | nil =>
      constructor
      · intro found
        cases found
      · intro both
        obtain ⟨some, between, split, -⟩ := both
        exact absurd (List.append_eq_nil_iff.mp split.symm).2 some
  | cons part above ih =>
      rw [closestManifest, owns_cons]
      cases here : tree.hasManifest (part :: above) with
      | true =>
          rw [if_pos rfl, Option.some.injEq]
          constructor
          · intro same
            rw [← same]
            exact ⟨List.cons_ne_nil _ _, .inl rfl⟩
          · intro both
            obtain ⟨-, same | ⟨-, bare⟩⟩ := both
            · exact same.symm
            · cases bare
      | false =>
          rw [if_neg Bool.false_ne_true, ih]
          refine and_congr_right fun some => ?_
          constructor
          · intro owns
            exact .inr ⟨owns, rfl⟩
          · intro either
            obtain same | ⟨owns, -⟩ := either
            · rw [same, here] at manifest
              cases manifest
            · exact owns

end Owns

/-- Space to tilde. -/
def Printable (char : Char) : Prop := 0x20 ≤ char.toNat ∧ char.toNat ≤ 0x7e

theorem not_ends_of_printable {char : Char} (printable : Printable char) :
    splitEnds char = false := by
  have codes : ∀ code ∈ "\n\r".toList ++ extraLineEnds,
      code.toNat < 0x20 ∨ 0x7e < code.toNat := by
    have checked : ("\n\r".toList ++ extraLineEnds).all
        (fun code => decide (code.toNat < 0x20 ∨ 0x7e < code.toNat)) = true := by
      decide +kernel
    intro code listed
    exact of_decide_eq_true (List.all_eq_true.mp checked code listed)
  have absent : char ∉ "\n\r".toList ++ extraLineEnds := by
    intro listed
    obtain ⟨low, high⟩ := printable
    obtain below | above := codes char listed
    · omega
    · omega
  rw [List.mem_append, not_or] at absent
  rw [splitEnds, pythonEnds, extraEnds, Bool.or_eq_false_iff]
  exact ⟨(contains_eq_false_iff _ _).mpr absent.1, (contains_eq_false_iff _ _).mpr absent.2⟩

theorem printable_of_plain {char : Char} (isPlain : plain char = true) : Printable char := by
  rw [plain, Bool.and_eq_true, Bool.and_eq_true, Bool.and_eq_true, decide_eq_true_iff,
    decide_eq_true_iff] at isPlain
  exact isPlain.1.1

theorem octalDigit_printable (value : Nat) : Printable (octalDigit value) := by
  have digits : ∀ digit < 8, Printable (Char.ofNat (0x30 + digit)) := by
    unfold Printable
    decide
  exact digits (value % 8) (Nat.mod_lt value (by decide))

theorem escape_printable (char : Char) : ∀ shown ∈ escape char, Printable shown := by
  intro shown listed
  have backslash : Printable '\\' := by
    unfold Printable
    decide
  rw [escape] at listed
  by_cases isPlain : plain char = true
  · rw [if_pos isPlain, List.mem_singleton] at listed
    rw [listed]
    exact printable_of_plain isPlain
  · rw [if_neg isPlain] at listed
    cases found : namedEscapes.lookup char with
    | some letter =>
        have letters : namedEscapes.all
            (fun item => decide (0x20 ≤ item.2.toNat ∧ item.2.toNat ≤ 0x7e)) = true := by
          decide
        obtain ⟨earlier, later, split, -⟩ := List.lookup_eq_some_iff.mp found
        have inTable : (char, letter) ∈ namedEscapes := by
          rw [split]
          exact List.mem_append_right earlier List.mem_cons_self
        rw [found] at listed
        obtain same | rest := List.mem_cons.mp listed
        · rw [same]
          exact backslash
        · rw [List.mem_singleton.mp rest]
          have inRange : 0x20 ≤ letter.toNat ∧ letter.toNat ≤ 0x7e :=
            of_decide_eq_true (List.all_eq_true.mp letters _ inTable)
          exact inRange
    | none =>
        rw [found] at listed
        obtain ⟨byte, -, inOctal⟩ := List.mem_flatMap.mp listed
        obtain same | rest := List.mem_cons.mp inOctal
        · rw [same]
          exact backslash
        · rw [List.mem_cons, List.mem_cons, List.mem_singleton] at rest
          obtain same | same | same := rest
          · rw [same]
            exact octalDigit_printable _
          · rw [same]
            exact octalDigit_printable _
          · rw [same]
            exact octalDigit_printable _

theorem printName_printable (name : List Char) : ∀ shown ∈ printName name, Printable shown := by
  intro shown listed
  have quotes : Printable quoteChar := by
    unfold Printable
    decide
  rw [printName] at listed
  by_cases allPlain : name.all plain = true
  · rw [if_pos allPlain] at listed
    exact printable_of_plain (List.all_eq_true.mp allPlain shown listed)
  · rw [if_neg allPlain, quoted, List.cons_append, List.mem_cons, List.mem_append,
      List.mem_singleton] at listed
    obtain same | inside | same := listed
    · rw [same]
      exact quotes
    · obtain ⟨char, -, escaped⟩ := List.mem_flatMap.mp inside
      exact escape_printable char shown escaped
    · rw [same]
      exact quotes

/-- `splitlines` gives the printed names back. -/
theorem lines_stdout (changes : List Change) :
    lines splitEnds (stdout changes) = changes.map fun change => printName change.listed.text := by
  have line : ∀ text rest : List Char, (∀ char ∈ text, splitEnds char = false) →
      linesFrom splitEnds false [] (text ++ '\n' :: rest) =
        text :: linesFrom splitEnds false [] rest := by
    intro text rest inner
    have ended : ∀ current : List Char, linesFrom splitEnds false current ('\n' :: rest) =
        current.reverse :: linesFrom splitEnds false [] rest := by
      intro current
      rw [linesFrom, if_neg (by simp [pairs]), if_pos (by decide)]
      rfl
    by_cases empty : text = []
    · rw [empty, List.nil_append, ended]
      rfl
    · rw [linesFrom_inner (by decide) (by decide) _ inner empty, ended]
      simp
  rw [lines, stdout]
  induction changes with
  | nil => rfl
  | cons change rest ih =>
      rw [List.flatMap_cons, List.append_assoc, List.singleton_append, line, ih, List.map_cons]
      intro char listed
      exact not_ends_of_printable (printName_printable _ char listed)

theorem pathOf_text (file : FilePath) : pathOf file.text = file.parts := by
  have read : ∀ parts : List String,
      (∀ part ∈ parts, part ≠ "" ∧ part ≠ "." ∧ '/' ∉ part.toList) →
      ((runs (· != '/') (['/'].intercalate (parts.map String.toList))).filter
        (· != ['.'])).map String.ofList = parts := by
    intro parts clean
    have whole : ∀ part ∈ parts, runs (· != '/') part.toList = [part.toList] := by
      intro part listed
      obtain ⟨some, -, noSlash⟩ := clean part listed
      refine runs_whole _ ?_ ?_
      · intro char inPart
        rw [bne_iff_ne]
        intro same
        exact noSlash (same ▸ inPart)
      · intro empty
        exact some (String.toList_eq_nil_iff.mp empty)
    have split : runs (· != '/') (['/'].intercalate (parts.map String.toList)) =
        parts.map String.toList := by
      induction parts with
      | nil => rfl
      | cons first rest ih =>
          have here := whole first List.mem_cons_self
          cases rest with
          | nil => simpa [List.intercalate] using here
          | cons second others =>
              have joined : ['/'].intercalate ((first :: second :: others).map String.toList) =
                  first.toList ++
                    '/' :: ['/'].intercalate ((second :: others).map String.toList) := by
                simp [List.intercalate]
              rw [joined, runs_gap (· != '/') (by decide), here, ih
                (fun part listed => clean part (List.mem_cons_of_mem first listed))
                fun part listed => whole part (List.mem_cons_of_mem first listed)]
              rfl
    have kept : (parts.map String.toList).filter (· != ['.']) = parts.map String.toList := by
      refine List.filter_eq_self.mpr fun chars listed => ?_
      obtain ⟨part, partIn, same⟩ := List.mem_map.mp listed
      rw [bne_iff_ne, ← same]
      intro dot
      refine (clean part partIn).2.1 (String.toList_inj.mp ?_)
      exact dot
    rw [split, kept, List.map_map]
    exact (List.map_congr_left fun part _ => String.ofList_toList).trans (List.map_id parts)
  rw [pathOf, FilePath.text, read file.parts.reverse fun part listed =>
    file.clean part (List.mem_reverse.mp listed), List.reverse_reverse]

theorem pathOf_blank {line : List Char} (blank : line.any (fun char => !char.isWhitespace) = false) :
    (pathOf line).tail = [] := by
  have noSlash : ∀ char ∈ line, (char != '/') = true := by
    intro char listed
    rw [bne_iff_ne]
    intro same
    have white := List.any_eq_false.mp blank char listed
    rw [same] at white
    exact white (by decide)
  have short : (runs (· != '/') line).length ≤ 1 := by
    by_cases empty : line = []
    · rw [empty]
      exact Nat.zero_le 1
    · rw [runs_whole _ noSlash empty]
      exact Nat.le_refl 1
  have parts : (pathOf line).length ≤ 1 := by
    rw [pathOf, List.length_reverse, List.length_map]
    exact (List.length_filter_le _ _).trans short
  refine List.eq_nil_of_length_eq_zero ?_
  rw [List.length_tail]
  omega

section Select
variable {tree : Worktree}

/-- git prints a name that leads to the directory: it is in there and printed as it is, or it is
printed in quotes and what is printed is a path in there. -/
def Listed (tree : Worktree) (changes : List Change) (dir : Dir) : Prop :=
  ∃ change ∈ changes,
    (change.listed.text.all plain = true ∧ Owns tree dir change.listed.dir) ∨
      (change.listed.text.all plain = false ∧
        Owns tree dir (pathOf (quoted change.listed.text)).tail)

theorem mem_computeChangedModulePaths {changes : List Change} {dir : Dir}
    (manifest : tree.hasManifest dir = true) :
    dir ∈ computeChangedModulePaths tree (some changes) ↔ dir ≠ [] ∧ Listed tree changes dir := by
  have leads : ∀ name : FilePath, Owns tree dir (pathOf (printName name.text)).tail ↔
      (name.text.all plain = true ∧ Owns tree dir name.dir) ∨
        (name.text.all plain = false ∧ Owns tree dir (pathOf (quoted name.text)).tail) := by
    intro name
    cases allPlain : name.text.all plain with
    | true => simp [printName, allPlain, pathOf_text, FilePath.dir]
    | false => simp [printName, allPlain]
  have found : dir ∈ computeChangedModulePaths tree (some changes) ↔
      ∃ change ∈ changes, closestManifest tree (pathOf (printName change.listed.text)).tail =
        some dir := by
    simp only [computeChangedModulePaths, changedFiles, lines_stdout, List.mem_filterMap,
      List.mem_filter, List.mem_map]
    constructor
    · intro some
      obtain ⟨line, ⟨⟨change, listed, same⟩, -⟩, closest⟩ := some
      rw [← same] at closest
      exact ⟨change, listed, closest⟩
    · intro some
      obtain ⟨change, listed, closest⟩ := some
      refine ⟨_, ⟨⟨change, listed, rfl⟩, ?_⟩, closest⟩
      by_contra blank
      rw [pathOf_blank (Bool.eq_false_of_not_eq_true blank)] at closest
      cases closest
  rw [found]
  simp only [closestManifest_iff manifest, leads, Listed]
  constructor
  · intro some
    obtain ⟨change, listed, below, owns⟩ := some
    exact ⟨below, change, listed, owns⟩
  · intro both
    obtain ⟨below, change, listed, owns⟩ := both
    exact ⟨change, listed, below, owns⟩

/-- A file of the module is not what it was. -/
def Changed (tree : Worktree) (changes : List Change) (dir : Dir) : Prop :=
  ∃ change ∈ changes, ∃ file ∈ change.touched, Owns tree dir file.dir

def SelectsChanged (scan : Scan tree) (changes : List Change) : Prop :=
  ∀ version ∈ scan, ∀ item ∈ version.2, Changed tree changes item.2.dir →
    item ∈ filterModulesByChanged version.2 (changedAbsPaths tree (some changes)) ∧
      item.1 ∈ modulesChangedBetween scan (some changes)

theorem mem_filterModulesByChanged {modules : List (String × ModuleInfo tree)}
    {changes : List Change} {item : String × ModuleInfo tree} (listed : item ∈ modules) :
    item ∈ filterModulesByChanged modules (changedAbsPaths tree (some changes)) ↔
      item.2.dir ≠ [] ∧ Listed tree changes item.2.dir := by
  rw [filterModulesByChanged, List.mem_filter, decide_eq_true_iff, and_iff_right listed,
    changedAbsPaths, List.mem_map, ← mem_computeChangedModulePaths item.2.manifest]
  constructor
  · intro some
    obtain ⟨rel, relIn, same⟩ := some
    rw [List.append_cancel_right same] at relIn
    exact relIn
  · intro relIn
    exact ⟨item.2.dir, relIn, rfl⟩

/-- The changed modules are selected exactly when none of them is the repository itself and
git prints a name that leads to each. -/
theorem selectsChanged_iff (scan : Scan tree) (changes : List Change) :
    SelectsChanged scan changes ↔
      ∀ version ∈ scan, ∀ item ∈ version.2, Changed tree changes item.2.dir →
        item.2.dir ≠ [] ∧ Listed tree changes item.2.dir := by
  constructor
  · intro selects version versionIn item itemIn changed
    exact (mem_filterModulesByChanged itemIn).mp (selects version versionIn item itemIn changed).1
  · intro leads version versionIn item itemIn changed
    have selected := (mem_filterModulesByChanged itemIn).mpr
      (leads version versionIn item itemIn changed)
    exact ⟨selected, List.mem_flatMap.mpr
      ⟨version, versionIn, List.mem_map_of_mem (f := Prod.fst) selected⟩⟩

end Select

/-- `addons/sale` is the only module. -/
def saleTree : Worktree where
  repoPath := ["odoo", "srv"]
  isFile path := path == ["__manifest__.py", "sale", "addons"]

def saleScan : Scan saleTree := [("17.0", [("sale", ⟨["sale", "addons"], by decide⟩)])]

def accented : FilePath where
  parts := ["donn" ++ String.singleton (Char.ofNat 0xe9) ++ "es.xml", "sale", "addons"]
  nonempty := List.cons_ne_nil _ _
  clean := by decide +kernel

/-- A data file with an accent in its name is changed: git prints its path in quotes. -/
theorem accented_name_missed : ¬ SelectsChanged saleScan [.written accented] := by
  intro selects
  have changed : Changed saleTree [.written accented] ["sale", "addons"] :=
    ⟨_, List.mem_singleton_self _, _, List.mem_singleton_self _, owns_self _⟩
  have named := (selects _ (List.mem_singleton_self _) _ (List.mem_singleton_self _) changed).2
  have none : modulesChangedBetween saleScan (some [.written accented]) = [] := by
    decide +kernel
  rw [none] at named
  cases named

end OdooSemantic.Indexer.ChangedModules
