import OdooSemantic.Lib.Py
import OdooSemantic.Prune.Patterns

/-!
# The text of a module and its token index

The files of a module at HEAD are searched for a pattern only where the index has every run
of the identifier.  Answers are remembered by request.
-/

set_option autoImplicit false

namespace OdooSemantic.Prune

open Lib.Py Lib.Regex Lib.Runs

/-- The text of one module at HEAD, by path, with the directories it was read from and those
git proves HEAD does not have. -/
structure ModuleSource where
  module : String
  prefixes : List String
  available : Bool
  absentPrefixes : List String
  files : List (String × String)
  distinct : (files.map Prod.fst).Nodup

def ModuleSource.paths (source : ModuleSource) : List String := source.files.map Prod.fst

/-- `self.files.get(path)`. -/
def ModuleSource.text? (source : ModuleSource) (path : String) : Option String :=
  (source.files.find? (·.1 == path)).map Prod.snd

theorem ModuleSource.text?_eq {source : ModuleSource} {path text : String} :
    source.text? path = some text ↔ (path, text) ∈ source.files := by
  rw [text?, Option.map_eq_some_iff]
  constructor
  · intro given
    obtain ⟨file, found, same⟩ := given
    have named := List.find?_some found
    rw [beq_iff_eq] at named
    rw [← named, ← same]
    exact List.mem_of_find?_eq_some found
  · intro listed
    cases found : source.files.find? (·.1 == path) with
    | none => exact absurd (beq_self_eq_true path) (List.find?_eq_none.mp found _ listed)
    | some file =>
        have named := List.find?_some found
        rw [beq_iff_eq] at named
        have same := List.inj_on_of_nodup_map source.distinct
          (List.mem_of_find?_eq_some found) listed named
        exact ⟨file, rfl, by rw [same]⟩

theorem ModuleSource.text?_paths {source : ModuleSource} {path text : String}
    (found : source.text? path = some text) : path ∈ source.paths :=
  List.mem_map_of_mem (f := Prod.fst) (text?_eq.mp found)

variable (tables : CharTables)

/-- `_TOKEN_RE.findall(text)`. -/
def tokens (text : String) : List (List Char) := runs tables.word text.toList

/-- `_index`: each token with each path it is found in. -/
def ModuleSource.index (source : ModuleSource) : List (List Char × String) :=
  source.files.flatMap fun file => (tokens tables file.2).dedup.map (·, file.1)

/-- `self._index.get(run)`. -/
def indexed (index : List (List Char × String)) (run : List Char) : List String :=
  (index.filter (·.1 == run)).map Prod.snd

theorem mem_indexed {source : ModuleSource} {run : List Char} {path : String} :
    path ∈ indexed (source.index tables) run ↔
      ∃ text, source.text? path = some text ∧ run ∈ tokens tables text := by
  constructor
  · intro listed
    obtain ⟨entry, entryIn, samePath⟩ := List.mem_map.mp listed
    obtain ⟨inIndex, sameRun⟩ := List.mem_filter.mp entryIn
    obtain ⟨file, fileIn, ofFile⟩ := List.mem_flatMap.mp inIndex
    obtain ⟨token, tokenIn, same⟩ := List.mem_map.mp ofFile
    rw [← same] at samePath sameRun
    refine ⟨file.2, ?_, ?_⟩
    · rw [ModuleSource.text?_eq, ← samePath]
      exact fileIn
    · rw [← eq_of_beq sameRun]
      exact List.mem_dedup.mp tokenIn
  · intro given
    obtain ⟨text, found, inText⟩ := given
    refine List.mem_map.mpr ⟨(run, path), List.mem_filter.mpr ⟨?_, beq_self_eq_true run⟩, rfl⟩
    exact List.mem_flatMap.mpr ⟨(path, text), ModuleSource.text?_eq.mp found,
      List.mem_map.mpr ⟨run, List.mem_dedup.mpr inText, rfl⟩⟩

/-- The loop of `candidates`; the files of the runs read so far are `found`. -/
def narrow (index : List (List Char × String)) :
    Option (List String) → List (List Char) → List String
  | found, [] => found.getD []
  | found, run :: rest =>
      let files := indexed index run
      if files.isEmpty then []
      else
        let both := match found with
          | none => files
          | some earlier => earlier.filter files.contains
        if both.isEmpty then [] else narrow index (some both) rest

theorem mem_narrow {index : List (List Char × String)} {path : String} {rest : List (List Char)} :
    ∀ {found : List String}, path ∈ narrow index (some found) rest ↔
      path ∈ found ∧ ∀ run ∈ rest, path ∈ indexed index run := by
  induction rest with
  | nil => simp [narrow]
  | cons run rest ih =>
      intro found
      rw [List.forall_mem_cons, ← and_assoc, narrow]
      by_cases none : (indexed index run).isEmpty = true
      · rw [if_pos none]
        simp [List.isEmpty_iff.mp none]
      · rw [if_neg none]
        have members : path ∈ found.filter (indexed index run).contains ↔
            path ∈ found ∧ path ∈ indexed index run := by
          rw [List.mem_filter, List.contains_iff_mem]
        rw [← members]
        by_cases apart : (found.filter (indexed index run).contains).isEmpty = true
        · rw [if_pos apart]
          simp [List.isEmpty_iff.mp apart]
        · rw [if_neg apart]
          exact ih

theorem mem_narrow_all {index : List (List Char × String)} {path : String} {run : List Char}
    {rest : List (List Char)} : path ∈ narrow index none (run :: rest) ↔
      ∀ other ∈ run :: rest, path ∈ indexed index other := by
  rw [narrow]
  by_cases none : (indexed index run).isEmpty = true
  · rw [if_pos none]
    simp [List.isEmpty_iff.mp none]
  · rw [if_neg none, if_neg none, mem_narrow, List.forall_mem_cons]

def hasSuffix (suffixes : Option (List String)) (path : String) : Bool :=
  suffixes.all (endsWithAny path)

def ModuleSource.candidates (source : ModuleSource) (ident : String)
    (suffixes : Option (List String)) : List String :=
  let runs := tokens tables ident
  if runs.isEmpty then
    let out := sortedSet source.paths
    match suffixes with
    | none => out
    | some suffixes => out.filter (endsWithAny · suffixes)
  else
    let out := sortedSet (narrow (source.index tables) none runs)
    match suffixes with
    | none => out
    | some suffixes => out.filter (endsWithAny · suffixes)

def ModuleSource.indexedFiles (source : ModuleSource) (ident : String) : List String :=
  if (tokens tables ident).isEmpty then source.paths
  else narrow (source.index tables) none (tokens tables ident)

theorem candidates_eq (source : ModuleSource) (ident : String) (suffixes : Option (List String)) :
    source.candidates tables ident suffixes =
      (sortedSet (source.indexedFiles tables ident)).filter (hasSuffix suffixes) := by
  rw [ModuleSource.candidates, ModuleSource.indexedFiles]
  cases suffixes with
  | none =>
      have all : ∀ items : List String, items.filter (hasSuffix none) = items :=
        fun items => List.filter_eq_self.mpr fun _ _ => rfl
      rw [all]
      split <;> rfl
  | some suffixes => split <;> rfl

theorem indexedFiles_of_search {source : ModuleSource} {form : Form} {ident path text : String}
    (isText : source.text? path = some text)
    (found : search (form.pattern tables ident) text.toList = true) :
    path ∈ source.indexedFiles tables ident := by
  rw [ModuleSource.indexedFiles]
  cases parts : tokens tables ident with
  | nil => exact ModuleSource.text?_paths isText
  | cons run rest =>
      refine (@mem_narrow_all (source.index tables) _ _ _).mpr ?_
      intro other listed
      rw [← parts] at listed
      exact (mem_indexed tables).mpr ⟨text, isText, search_runs tables found listed⟩

theorem indexedFiles_paths {source : ModuleSource} {ident path : String}
    (listed : path ∈ source.indexedFiles tables ident) : path ∈ source.paths := by
  rw [ModuleSource.indexedFiles] at listed
  cases parts : tokens tables ident with
  | nil =>
      rw [parts] at listed
      exact listed
  | cons run rest =>
      rw [parts] at listed
      obtain ⟨text, isText, -⟩ := (mem_indexed tables).mp
        ((@mem_narrow_all (source.index tables) _ _ _).mp listed run List.mem_cons_self)
      exact ModuleSource.text?_paths isText

/-- The arguments of `search`; the pattern is a form of the identifier. -/
structure Request where
  form : Form
  ident : String
  suffixes : Option (List String)
  files : Option (List String)
  deriving DecidableEq

/-- The key of `_memo`. -/
def Request.key (request : Request) : Request :=
  { request with files := request.files.map sortedSet }

def inScope (files : Option (List String)) (path : String) : Bool :=
  files.all (·.contains path)

/-- `pattern.search(self.files[path])`. -/
def ModuleSource.shows (source : ModuleSource) (form : Form) (ident path : String) : Bool :=
  (source.text? path).any fun text => Lib.Regex.search (form.pattern tables ident) text.toList

/-- `search` of a request that is not remembered. -/
def ModuleSource.find (source : ModuleSource) (key : Request) : List String :=
  let pool := source.candidates tables key.ident key.suffixes
  let pool := match key.files with
    | none => pool
    | some wanted => pool.filter wanted.contains
  pool.filter (source.shows tables key.form key.ident)

/-- `_memo`, and the answer to a request. -/
def ModuleSource.search (source : ModuleSource) (memo : List (Request × List String))
    (request : Request) : List (Request × List String) × List String :=
  let key := request.key
  match memo.find? (·.1 = key) with
  | some entry => (memo, entry.2)
  | none =>
      let found := source.find tables key
      (memo ++ [(key, found)], found)

def ModuleSource.answers (source : ModuleSource) :
    List (Request × List String) → List Request → List (List String)
  | _, [] => []
  | memo, request :: rest =>
      let next := source.search tables memo request
      next.2 :: source.answers next.1 rest

/-- The pattern run over all of the texts. -/
def ModuleSource.searchAll (source : ModuleSource) (request : Request) : List String :=
  (sortedSet source.paths).filter fun path =>
    hasSuffix request.suffixes path && inScope request.files path &&
      source.shows tables request.form request.ident path

theorem find_eq (source : ModuleSource) (request : Request) :
    source.find tables request.key = source.searchAll tables request := by
  have scope : ∀ items : List String,
      (match request.key.files with
        | none => items
        | some wanted => items.filter wanted.contains) = items.filter (inScope request.files) := by
    intro items
    cases given : request.files with
    | none =>
        rw [Request.key, given]
        exact (List.filter_eq_self.mpr fun _ _ => rfl).symm
    | some wanted =>
        rw [Request.key, given]
        refine List.filter_congr fun path _ => ?_
        rw [Bool.eq_iff_iff, List.contains_iff_mem, mem_sortedSet]
        exact List.contains_iff_mem.symm
  rw [ModuleSource.find, scope, candidates_eq, List.filter_filter, List.filter_filter,
    ModuleSource.searchAll]
  have sameKeep : (fun path => source.shows tables request.key.form request.key.ident path &&
      inScope request.files path && hasSuffix request.key.suffixes path) =
      fun path => hasSuffix request.suffixes path && inScope request.files path &&
        source.shows tables request.form request.ident path := by
    funext path
    rw [Bool.and_comm, Bool.and_comm (source.shows ..), ← Bool.and_assoc]
    rfl
  rw [sameKeep]
  refine sortedSet_filter_congr fun path kept => ?_
  obtain ⟨-, shown⟩ := Bool.and_eq_true_iff.mp kept
  obtain ⟨text, isText, found⟩ := (Option.any_eq_true _ _).mp shown
  constructor
  · exact indexedFiles_paths tables
  · intro _
    exact indexedFiles_of_search tables isText found

def Remembers (source : ModuleSource) (memo : List (Request × List String)) : Prop :=
  ∀ entry ∈ memo, entry.2 = source.find tables entry.1

theorem search_eq {source : ModuleSource} {memo : List (Request × List String)}
    (remembers : Remembers tables source memo) (request : Request) :
    (source.search tables memo request).2 = source.searchAll tables request ∧
      Remembers tables source (source.search tables memo request).1 := by
  rw [ModuleSource.search]
  cases known : memo.find? (·.1 = request.key) with
  | some entry =>
      have isKey : entry.1 = request.key := by
        simpa only [decide_eq_true_eq] using List.find?_some known
      have answer := remembers entry (List.mem_of_find?_eq_some known)
      rw [isKey] at answer
      exact ⟨answer.trans (find_eq tables source request), remembers⟩
  | none =>
      refine ⟨find_eq tables source request, fun entry listed => ?_⟩
      obtain earlier | last := List.mem_append.mp listed
      · exact remembers entry earlier
      · rw [List.mem_singleton.mp last]

theorem answers_eq {source : ModuleSource} {requests : List Request} :
    ∀ {memo : List (Request × List String)}, Remembers tables source memo →
      source.answers tables memo requests = requests.map (source.searchAll tables) := by
  induction requests with
  | nil => intro memo _; rfl
  | cons request rest ih =>
      intro memo remembers
      obtain ⟨answer, further⟩ := search_eq tables remembers request
      rw [ModuleSource.answers, List.map_cons, ih further, answer]

/-- Every search gives the files the pattern matches, whatever was searched before. -/
theorem search_exact (source : ModuleSource) (requests : List Request) :
    source.answers tables [] requests = requests.map (source.searchAll tables) :=
  answers_eq tables fun _ listed => absurd listed List.not_mem_nil

end OdooSemantic.Prune
