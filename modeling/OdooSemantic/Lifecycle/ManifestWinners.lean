import OdooSemantic.Lib.Separators
import OdooSemantic.Lifecycle.ManifestScan

/-!
# Each visible manifest is a winner or shadowed

The walk over the visible manifests only sorts their verdicts into two lists, so the winner
of a name is the copy of least rank.
-/

set_option autoImplicit false

namespace OdooSemantic.Lifecycle.ManifestScan

open Lib.Py

theorem slash_join_inj {parts others : List String} (nonempty : parts ≠ [])
    (nonempty' : others ≠ []) (clean : ∀ part ∈ parts, '/' ∉ part.toList)
    (clean' : ∀ part ∈ others, '/' ∉ part.toList) (same : join "/" parts = join "/" others) :
    parts = others := by
  have split : ∀ names : List String, names ≠ [] → (∀ part ∈ names, '/' ∉ part.toList) →
      (join "/" names).toList.splitOn '/' = names.map String.toList := by
    intro names isCons slashFree
    have joined : (join "/" names).toList = ['/'].intercalate (names.map String.toList) :=
      join_toList '/' names
    rw [joined]
    refine List.splitOn_intercalate '/' ?_ (by simpa using isCons)
    intro part member
    obtain ⟨name, nameIn, rfl⟩ := List.mem_map.mp member
    exact slashFree name nameIn
  have chars : parts.map String.toList = others.map String.toList := by
    rw [← split parts nonempty clean, ← split others nonempty' clean', same]
  exact List.map_injective_iff.mpr (fun _ _ => String.toList_inj.mp) chars

theorem RelPath.ext' {path other : RelPath} (same : path.parts = other.parts) : path = other := by
  cases path
  cases other
  cases same
  rfl

theorem RelPath.text_inj {path other : RelPath} (same : path.text = other.text) : path = other := by
  have dotted : ∀ dir : RelPath, dir.parts ≠ [] → join "/" dir.parts ≠ "." := by
    intro dir nonempty isDot
    have single : dir.parts = ["."] :=
      slash_join_inj nonempty (by simp) (fun part member => (dir.clean part member).2)
        (by decide) isDot
    exact (dir.clean "." (by simp [single])).1 rfl
  unfold RelPath.text at same
  by_cases root : path.parts = [] <;> by_cases root' : other.parts = []
  · exact RelPath.ext' (root.trans root'.symm)
  · rw [if_pos root, if_neg root'] at same
    exact absurd same.symm (dotted other root')
  · rw [if_neg root, if_pos root'] at same
    exact absurd same (dotted path root)
  · rw [if_neg root, if_neg root'] at same
    exact RelPath.ext' (slash_join_inj root root' (fun part member => (path.clean part member).2)
      (fun part member => (other.clean part member).2) same)

theorem ManifestPath.text_inj {path other : ManifestPath} (same : path.text = other.text) :
    path = other := by
  have fileClean : ∀ file : ManifestFile, '/' ∉ file.fileName.toList := by
    intro file
    cases file <;> decide
  have clean : ∀ manifest : ManifestPath, ∀ part ∈ manifest.dir.parts ++ [manifest.file.fileName],
      '/' ∉ part.toList := by
    intro manifest part member
    rcases List.mem_append.mp member with inDir | isFile
    · exact (manifest.dir.clean part inDir).2
    · rw [List.mem_singleton.mp isFile]
      exact fileClean manifest.file
  have parts := slash_join_inj (by simp) (by simp) (clean path) (clean other) same
  obtain ⟨sameDir, sameFile⟩ := List.append_inj' parts rfl
  have fileSame : path.file = other.file := by
    have names := List.cons.inj sameFile
    cases first : path.file <;> cases second : other.file <;>
      simp [first, second, ManifestFile.fileName] at names ⊢
  cases path
  cases other
  cases RelPath.ext' sameDir
  cases fileSame
  rfl

@[simp] theorem mem_pathSet {paths : List ManifestPath} {path : ManifestPath} :
    path ∈ pathSet paths ↔ path ∈ paths := by
  rw [pathSet, mem_sortedBy, List.mem_dedup]

section Dispatch
variable {checkout : Checkout} {path other : ManifestPath}

theorem ManifestPath.sibling_eq {file : ManifestFile} (sameDir : path.dir = other.dir)
    (sameFile : other.file = file) : path.sibling file = other := by
  cases path
  cases other
  cases sameDir
  cases sameFile
  rfl

def Dispatched (era : Era) (has : ManifestPath → Prop) (path : ManifestPath) : Prop :=
  has path ∧ path.skipped = false ∧
    (era = .legacy ∧ path.file = .openerp ∨ era = .modern ∧ path.file = .manifest ∨
      era = .dual ∧ (path.file = .openerp → ¬ has (path.sibling .manifest)))

theorem mem_dualManifests {modern legacy : List ManifestPath} {has : ManifestPath → Prop}
    (isModern : ∀ path, path ∈ modern ↔ has path ∧ path.skipped = false ∧ path.file = .manifest)
    (isLegacy : ∀ path, path ∈ legacy ↔ has path ∧ path.skipped = false ∧ path.file = .openerp) :
    path ∈ dualManifests modern legacy ↔ Dispatched .dual has path := by
  have covered : path.dir ∈ modern.map ManifestPath.dir ↔
      has (path.sibling .manifest) ∧ path.skipped = false := by
    rw [List.mem_map]
    constructor
    · rintro ⟨other, member, sameDir⟩
      obtain ⟨here, plain, file⟩ := (isModern other).mp member
      rw [ManifestPath.sibling_eq sameDir.symm file]
      exact ⟨here, by rw [ManifestPath.skipped, ← sameDir]; exact plain⟩
    · rintro ⟨here, plain⟩
      exact ⟨path.sibling .manifest, (isModern _).mpr ⟨here, plain, rfl⟩, rfl⟩
  simp only [dualManifests, List.mem_append, List.mem_filter, isModern, isLegacy, covered,
    Dispatched, decide_eq_true_eq]
  by_cases plain : path.skipped = false <;> cases file : path.file <;> simp [plain]

theorem mem_scanFor {file : ManifestFile} : path ∈ scanFor checkout file ↔
    path ∈ checkout.disk ∧ path.skipped = false ∧ path.file = file := by
  rw [scanFor, List.mem_filter, decide_eq_true_eq, ← AList.mem_keys, and_comm (a := path.file = file)]

theorem mem_findManifests : path ∈ findManifests checkout ↔
    Dispatched (manifestEra checkout.dispatchVersion) (· ∈ checkout.disk) path := by
  unfold findManifests
  cases manifestEra checkout.dispatchVersion with
  | legacy | modern => simp [mem_scanFor, Dispatched]
  | dual => exact mem_dualManifests (fun _ => mem_scanFor) fun _ => mem_scanFor

theorem mem_filterManifestPaths {paths : List ManifestPath} {version : String} :
    path ∈ filterManifestPaths paths version ↔
      Dispatched (manifestEra version) (· ∈ paths) path := by
  have kept : ∀ file path, path ∈ (paths.filter (·.skipped = false)).filter (·.file = file) ↔
      path ∈ paths ∧ path.skipped = false ∧ path.file = file := by
    intro file path
    rw [List.mem_filter, List.mem_filter, decide_eq_true_eq, decide_eq_true_eq, and_assoc]
  simp only [filterManifestPaths]
  cases manifestEra version with
  | legacy => exact (kept .openerp path).trans (by simp [Dispatched])
  | modern => exact (kept .manifest path).trans (by simp [Dispatched])
  | dual => exact mem_dualManifests (kept .manifest) (kept .openerp)

end Dispatch

section Verdicts
variable {checkout : Checkout} {path : ManifestPath}

theorem examine_unreadable :
    examine checkout path = .unreadable ↔ checkout.readManifestSource path = none := by
  unfold examine exclude
  cases checkout.readManifestSource path with
  | none => simp
  | some source =>
      simp only [reduceCtorEq, iff_false]
      split
      · exact Verdict.noConfusion
      · split
        · exact Verdict.noConfusion
        · split
          · exact Verdict.noConfusion
          · split <;> exact Verdict.noConfusion

theorem examine_excluded {entry : ExcludedModule}
    (isExcluded : examine checkout path = .excluded entry) :
    entry.name = checkout.moduleName path ∧ entry.path = path.dir := by
  simp only [examine, exclude] at isExcluded
  split at isExcluded
  · cases isExcluded
  · split at isExcluded
    · cases isExcluded
      exact ⟨rfl, rfl⟩
    · split at isExcluded
      · cases isExcluded
        exact ⟨rfl, rfl⟩
      · split at isExcluded
        · cases isExcluded
          exact ⟨rfl, rfl⟩
        · split at isExcluded <;> cases isExcluded
          exact ⟨rfl, rfl⟩

def Verdict.info : Verdict → Option ModuleInfo
  | .present info => some info
  | .excluded _ => none
  | .unreadable => none

def Verdict.entry : Verdict → Option ExcludedModule
  | .excluded entry => some entry
  | .present _ => none
  | .unreadable => none

end Verdicts

section Copies
variable (checkout : Checkout)

def Copy (name : String) (path : ManifestPath) : Prop :=
  path ∈ visiblePaths checkout ∧ checkout.moduleName path = name ∧
    (checkout.readManifestSource path).isSome = true

def rank (path : ManifestPath) : Bool ×ₗ Bool ×ₗ Nat ×ₗ String :=
  match examine checkout path with
  | .present info => toLex (false, presentRank (path, info))
  | .excluded entry => toLex (true, toLex (false, excludedRank entry))
  | .unreadable => toLex (true, toLex (true, toLex (0, "")))

theorem Copy.readable {name : String} {path : ManifestPath} (isCopy : Copy checkout name path) :
    examine checkout path ≠ .unreadable := by
  intro unreadable
  rw [examine_unreadable] at unreadable
  have readable := isCopy.2.2
  rw [unreadable] at readable
  cases readable

structure Best (name : String) (path : ManifestPath) : Prop where
  copy : Copy checkout name path
  least : ∀ other, Copy checkout name other → rank checkout path ≤ rank checkout other

variable {checkout} {name : String} {path other : ManifestPath}

theorem findManifests_dir (found : path ∈ findManifests checkout)
    (found' : other ∈ findManifests checkout) (same : path.dir = other.dir) : path = other := by
  obtain ⟨here, -, ofEra⟩ := mem_findManifests.mp found
  obtain ⟨here', -, ofEra'⟩ := mem_findManifests.mp found'
  have sameFile : path.file = other.file := by
    rcases ofEra with ⟨isLegacy, file⟩ | ⟨isModern, file⟩ | ⟨isDual, alone⟩
    · rcases ofEra' with ⟨-, file'⟩ | ⟨isModern, -⟩ | ⟨isDual, -⟩
      · exact file.trans file'.symm
      · exact absurd (isLegacy.symm.trans isModern) (by decide)
      · exact absurd (isLegacy.symm.trans isDual) (by decide)
    · rcases ofEra' with ⟨isLegacy, -⟩ | ⟨-, file'⟩ | ⟨isDual, -⟩
      · exact absurd (isLegacy.symm.trans isModern) (by decide)
      · exact file.trans file'.symm
      · exact absurd (isModern.symm.trans isDual) (by decide)
    · rcases ofEra' with ⟨isLegacy, -⟩ | ⟨isModern, -⟩ | ⟨-, alone'⟩
      · exact absurd (isLegacy.symm.trans isDual) (by decide)
      · exact absurd (isModern.symm.trans isDual) (by decide)
      · cases file : path.file with
        | manifest =>
            cases file' : other.file with
            | manifest => rfl
            | openerp =>
                refine absurd here ?_
                rw [← ManifestPath.sibling_eq same.symm file]
                exact alone' file'
        | openerp =>
            cases file' : other.file with
            | openerp => rfl
            | manifest =>
                refine absurd here' ?_
                rw [← ManifestPath.sibling_eq same file']
                exact alone file
  exact (ManifestPath.sibling_eq same.symm sameFile).symm.trans (ManifestPath.sibling_eq rfl rfl)

theorem visible_dir (visible : path ∈ visiblePaths checkout)
    (visible' : other ∈ visiblePaths checkout) (same : path.dir = other.dir) : path = other := by
  have found : ∀ manifest ∈ visiblePaths checkout, manifest ∈ findManifests checkout :=
    fun manifest member => mem_pathSet.mp (List.mem_of_mem_filter member)
  exact findManifests_dir (found path visible) (found other visible') same

theorem Best.unique (best : Best checkout name path) (best' : Best checkout name other) :
    path = other := by
  have sameRank := le_antisymm (best.least other best'.copy) (best'.least path best.copy)
  unfold rank at sameRank
  cases verdict : examine checkout path with
  | unreadable => exact absurd verdict best.copy.readable
  | present info =>
      cases verdict' : examine checkout other with
      | unreadable => exact absurd verdict' best'.copy.readable
      | excluded entry => simp [verdict, verdict'] at sameRank
      | present info' =>
          simp only [verdict, verdict', presentRank, EmbeddingLike.apply_eq_iff_eq,
            Prod.mk.injEq, true_and] at sameRank
          exact ManifestPath.text_inj sameRank.2.2
  | excluded entry =>
      cases verdict' : examine checkout other with
      | unreadable => exact absurd verdict' best'.copy.readable
      | present info => simp [verdict, verdict'] at sameRank
      | excluded entry' =>
          simp only [verdict, verdict', excludedRank, EmbeddingLike.apply_eq_iff_eq,
            Prod.mk.injEq, true_and] at sameRank
          have dirs := RelPath.text_inj sameRank.2
          rw [(examine_excluded verdict).2, (examine_excluded verdict').2] at dirs
          exact visible_dir best.copy.1 best'.copy.1 dirs

theorem visiblePaths_nodup : (visiblePaths checkout).Nodup := by
  refine List.Nodup.filter _ ?_
  exact (sortedBy_perm _ _).nodup_iff.mpr (List.nodup_dedup _)

def Verdict.winner : Verdict → Option Winner
  | .present info => some (.present info)
  | .excluded entry => some (.excluded entry)
  | .unreadable => none

end Copies

section Settle
variable (found : Candidates)

def entryOf (name : String) : Option ExcludedModule :=
  match resolve found name with
  | some (.excluded entry, _) => some entry
  | some (.present _, _) => none
  | none => none

variable {found}

end Settle

section Scan
variable {checkout : Checkout} {name : String} {path : ManifestPath}

end Scan

end OdooSemantic.Lifecycle.ManifestScan
