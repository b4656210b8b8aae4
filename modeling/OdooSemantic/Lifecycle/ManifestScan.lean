import Mathlib.Data.List.AList
import Mathlib.Data.Prod.Lex
import Mathlib.Data.String.Basic
import OdooSemantic.Ledger.Rows

/-!
# Scan truth of one checkout

`build_registry_scan`: the manifests on disk that git tracks, each read and either indexed or
excluded, and one winner for each module name.
-/

set_option autoImplicit false

namespace OdooSemantic.Lifecycle.ManifestScan

open Lib.Py
open Ledger.Rows (ExclusionReason)

structure RelPath where
  parts : List String
  clean : ∀ part ∈ parts, part ≠ "." ∧ '/' ∉ part.toList
  deriving DecidableEq

def RelPath.text (path : RelPath) : String :=
  if path.parts = [] then "." else join "/" path.parts

inductive ManifestFile where
  | manifest
  | openerp
  deriving DecidableEq

def ManifestFile.fileName : ManifestFile → String
  | .manifest => "__manifest__.py"
  | .openerp => "__openerp__.py"

/-- A path whose last part is one of `MANIFEST_FILENAMES`. -/
structure ManifestPath where
  dir : RelPath
  file : ManifestFile
  deriving DecidableEq

def ManifestPath.text (path : ManifestPath) : String :=
  join "/" (path.dir.parts ++ [path.file.fileName])

/-- Another name in the same directory. -/
def ManifestPath.sibling (path : ManifestPath) (file : ManifestFile) : ManifestPath :=
  { path with file }

/-- A set of paths, listed in the order of `sorted`. -/
def pathSet (paths : List ManifestPath) : List ManifestPath :=
  sortedBy ManifestPath.text paths.dedup

structure ManifestDict where
  version : Option String
  installable : Bool
  license : Option String
  others : List (String × String)
  deriving DecidableEq

/-- What is on disk under a manifest name. -/
inductive DiskEntry where
  | file (text : Option String)
  | directory

/-- `disk` are the paths that `rglob` of the two manifest names reaches, in the order of the
walk, and `tracked` what `git ls-files` lists. -/
structure Checkout where
  repoName : String
  repoVersion : Option String
  profileVersion : Option String
  disk : AList fun _ : ManifestPath => DiskEntry
  tracked : Option (List ManifestPath)
  parseManifestSource : String → Option ManifestDict
  moduleCommitSha : RelPath → Option String

/-- `read_manifest_source`: `none` when it raises `OSError`. -/
def Checkout.readManifestSource (checkout : Checkout) (path : ManifestPath) : Option String :=
  match checkout.disk.lookup path with
  | some (.file text) => text
  | some .directory => none
  | none => none

/-- `module_dir.name`. -/
def Checkout.moduleName (checkout : Checkout) (path : ManifestPath) : String :=
  path.dir.parts.getLast?.getD checkout.repoName

/-! ## Versions -/

def realVersion (version : Option String) : Option String :=
  version.filter fun text => text ≠ "" ∧ text ≠ "unknown"

def Checkout.dispatchVersion (checkout : Checkout) : String :=
  match checkout.repoVersion.filter (· ≠ "") with
  | some version => version
  | none => (realVersion checkout.profileVersion).getD ""

inductive Era where
  | legacy
  | dual
  | modern
  deriving DecidableEq

def legacyEraMaxMajor : Int := 9

def isNumber (part : List Char) : Bool := !part.isEmpty && part.all Char.isDigit

/-- The digits of `int(text)`, which may be grouped by underscores. -/
def natOfText (digits : List Char) : Option Int :=
  if (digits.splitOn '_').all isNumber then
    some ((digits.filter (· ≠ '_')).foldl (fun value digit => 10 * value + (digit.toNat - 48)) 0)
  else none

/-- `int(text)`, `none` when it raises. -/
def intOfText (text : List Char) : Option Int :=
  let trimmed := ((text.dropWhile Char.isWhitespace).reverse.dropWhile Char.isWhitespace).reverse
  match trimmed with
  | '-' :: digits => (natOfText digits).map (- ·)
  | '+' :: digits => natOfText digits
  | digits => natOfText digits

/-- `int(odoo_version.split(".")[0])`. -/
def majorOf (version : String) : Option Int :=
  (version.toList.splitOn '.').head?.bind intOfText

def manifestEra (version : String) : Era :=
  match majorOf version with
  | none => .modern
  | some major =>
      if major ≤ legacyEraMaxMajor then .legacy else if major = 10 then .dual else .modern

def startsNumber (part : List Char) : Bool := part.head?.any Char.isDigit

/-- `_SEMVER_PREFIX_RE.match`. -/
def semverPrefix (version : String) : Bool :=
  match version.toList.splitOn '.' with
  | major :: minor :: patch :: _ => isNumber major && isNumber minor && startsNumber patch
  | _ => false

/-- The first group of `_LONG_FORM_VERSION_RE.match`. -/
def longFormPrefix (version : String) : Option String :=
  match version.toList.splitOn '.' with
  | major :: minor :: third :: fourth :: _ =>
      if isNumber major && isNumber minor && isNumber third && startsNumber fourth then
        some (String.ofList (major ++ '.' :: minor))
      else none
  | _ => none

def placeVersion (versionRaw : String) (repoVersion : Option String) : String :=
  match repoVersion.filter (· ≠ "") with
  | some version => version
  | none => (longFormPrefix versionRaw).getD "unknown"

def manifestVersionMismatch (versionRaw odooVersion : String) : Bool :=
  (longFormPrefix versionRaw).any (· ≠ odooVersion)

inductive PolicyAction where
  | serve
  | ingestFlagged
  | skip

def licensePolicy : List (String × PolicyAction) :=
  [("LGPL-3", .serve), ("AGPL-3", .serve), ("GPL-3", .serve), ("OPL-1", .serve),
    ("unknown", .serve), ("OEEL-1", .skip)]

def licensePolicyAction (license : String) : PolicyAction :=
  (licensePolicy.lookup license).getD .serve

def defaultLicenseForMissing (major : Int) : String :=
  if major ≤ 8 then "AGPL-3" else "LGPL-3"

def resolveEffectiveLicense (manifest : ManifestDict) (major : Int) : String :=
  match manifest.license.filter (· ≠ "") with
  | some raw => raw.trimAscii.toString
  | none => defaultLicenseForMissing major

structure ModuleInfo where
  name : String
  odooVersion : String
  path : RelPath
  versionRaw : String
  versionMismatch : Bool
  license : String
  licenseNotice : Option String
  commitSha : Option String
  manifest : ManifestDict
  deriving DecidableEq

structure ExcludedModule where
  name : String
  reason : ExclusionReason
  path : RelPath
  manifestFile : ManifestFile
  versionRaw : String
  versionMismatch : Bool
  deriving DecidableEq

/-- What the scan makes of one manifest. -/
inductive Verdict where
  | unreadable
  | excluded (found : ExcludedModule)
  | present (info : ModuleInfo)
  deriving DecidableEq

section Examine
variable (checkout : Checkout)

def exclude (path : ManifestPath) (reason : ExclusionReason) (versionRaw : String)
    (mismatch : Bool) : Verdict :=
  .excluded
    { name := checkout.moduleName path
      reason
      path := path.dir
      manifestFile := path.file
      versionRaw
      versionMismatch := mismatch }

def buildModuleInfo (manifest : ManifestDict) (path : ManifestPath) (odooVersion versionRaw : String)
    (license : String) (licenseNotice : Option String) : ModuleInfo :=
  { name := checkout.moduleName path
    odooVersion
    path := path.dir
    versionRaw
    versionMismatch := manifestVersionMismatch versionRaw odooVersion
    license
    licenseNotice
    commitSha := checkout.moduleCommitSha path.dir
    manifest }

def examine (path : ManifestPath) : Verdict :=
  match checkout.readManifestSource path with
  | none => .unreadable
  | some source =>
      match checkout.parseManifestSource source with
      | none => exclude checkout path .unparseable "" false
      | some manifest =>
          let versionRaw := manifest.version.getD ""
          let odooVersion := placeVersion versionRaw checkout.repoVersion
          let mismatch := odooVersion != "unknown" && manifestVersionMismatch versionRaw odooVersion
          if manifest.installable = false then
            exclude checkout path .installableFalse versionRaw mismatch
          else if odooVersion = "unknown" then exclude checkout path .unparseable versionRaw false
          else
            let license := resolveEffectiveLicense manifest ((majorOf odooVersion).getD 10)
            match licensePolicyAction license with
            | .skip => exclude checkout path .licenseSkip versionRaw mismatch
            | .serve =>
                .present (buildModuleInfo checkout manifest path odooVersion versionRaw license none)
            | .ingestFlagged =>
                .present (buildModuleInfo checkout manifest path odooVersion versionRaw license
                  (some ("Module '" ++ checkout.moduleName path ++ "' license " ++ license ++
                    ": ingest_flagged per license policy. Content is indexed but withheld " ++
                    "from normal results pending review.")))

end Examine

def skipDirs : List String := [".git", "node_modules"]

def ManifestPath.skipped (path : ManifestPath) : Bool :=
  path.dir.parts.any (skipDirs.contains ·)

/-- `_scan(repo_path, filename)`. -/
def scanFor (checkout : Checkout) (file : ManifestFile) : List ManifestPath :=
  checkout.disk.keys.filter fun path => path.file = file ∧ path.skipped = false

/-- The manifests of the paths, one for each directory that prefers `__manifest__.py`. -/
def dualManifests (modern legacy : List ManifestPath) : List ManifestPath :=
  modern ++ legacy.filter (·.dir ∉ modern.map ManifestPath.dir)

/-- `get_manifest_finder(version).find(repo_path)`. -/
def findManifests (checkout : Checkout) : List ManifestPath :=
  match manifestEra checkout.dispatchVersion with
  | .legacy => scanFor checkout .openerp
  | .modern => scanFor checkout .manifest
  | .dual => dualManifests (scanFor checkout .manifest) (scanFor checkout .openerp)

def filterManifestPaths (paths : List ManifestPath) (version : String) : List ManifestPath :=
  let kept := paths.filter (·.skipped = false)
  let modern := kept.filter (·.file = .manifest)
  let legacy := kept.filter (·.file = .openerp)
  match manifestEra version with
  | .legacy => legacy
  | .modern => modern
  | .dual => dualManifests modern legacy

/-- `present_candidates` and `excluded_candidates` as they grow, with `unreadable`. -/
structure Candidates where
  present : List (ManifestPath × ModuleInfo)
  excluded : List ExcludedModule
  unreadable : List ManifestPath

def collect (checkout : Checkout) (found : Candidates) (path : ManifestPath) : Candidates :=
  match examine checkout path with
  | .unreadable => { found with unreadable := found.unreadable ++ [path] }
  | .excluded entry => { found with excluded := found.excluded ++ [entry] }
  | .present info => { found with present := found.present ++ [(path, info)] }

def Candidates.presentOf (found : Candidates) (name : String) : List (ManifestPath × ModuleInfo) :=
  found.present.filter (·.2.name = name)

def Candidates.excludedOf (found : Candidates) (name : String) : List ExcludedModule :=
  found.excluded.filter (·.name = name)

abbrev Rank := Bool ×ₗ Nat ×ₗ String

def manifestDepth (path : ManifestPath) : Nat := path.dir.parts.length + 1

def presentRank (candidate : ManifestPath × ModuleInfo) : Rank :=
  toLex (!semverPrefix candidate.2.versionRaw,
    toLex (manifestDepth candidate.1, candidate.1.text))

def excludedRank (entry : ExcludedModule) : Nat ×ₗ String :=
  toLex (entry.path.parts.length, entry.path.text)

inductive Winner where
  | present (info : ModuleInfo)
  | excluded (entry : ExcludedModule)

def resolve (found : Candidates) (name : String) : Option (Winner × List RelPath) :=
  match sortedBy presentRank (found.presentOf name) with
  | winner :: rest =>
      some (.present winner.2, (found.excludedOf name).map ExcludedModule.path ++
        rest.map fun candidate => candidate.1.dir)
  | [] =>
      match sortedBy excludedRank (found.excludedOf name) with
      | winner :: rest => some (.excluded winner, rest.map ExcludedModule.path)
      | [] => none

structure Winners where
  modules : AList fun _ : String × String => ModuleInfo
  excluded : AList fun _ : String => ExcludedModule
  shadowed : AList fun _ : String => List RelPath

def noWinners : Winners := ⟨∅, ∅, ∅⟩

def settle (found : Candidates) (won : Winners) (name : String) : Winners :=
  match resolve found name with
  | none => won
  | some (winner, losers) =>
      let shadowed := if losers = [] then won.shadowed
        else won.shadowed.insert name (sortedBy RelPath.text losers)
      match winner with
      | .present info =>
          { won with modules := won.modules.insert (info.odooVersion, name) info, shadowed }
      | .excluded entry => { won with excluded := won.excluded.insert name entry, shadowed }

/-- `modules` by version and name. -/
structure RegistryScan where
  odooVersion : String
  modules : AList fun _ : String × String => ModuleInfo
  excluded : AList fun _ : String => ExcludedModule
  shadowed : AList fun _ : String => List RelPath
  trackedPaths : Option (List ManifestPath)
  finderPaths : List ManifestPath
  untracked : List ManifestPath
  missing : List ManifestPath
  unreadable : List ManifestPath
  complete : Bool

section Scan
variable (checkout : Checkout)

def finderPaths : List ManifestPath := pathSet (findManifests checkout)

def trackedPaths : Option (List ManifestPath) :=
  checkout.tracked.map fun raw => pathSet (filterManifestPaths raw checkout.dispatchVersion)

def untrackedPaths : List ManifestPath :=
  match trackedPaths checkout with
  | none => []
  | some tracked => (finderPaths checkout).filter (· ∉ tracked)

def missingPaths : List ManifestPath :=
  match trackedPaths checkout with
  | none => []
  | some tracked => tracked.filter (· ∉ finderPaths checkout)

/-- `sorted(finder_paths - untracked)`. -/
def visiblePaths : List ManifestPath :=
  (finderPaths checkout).filter (· ∉ untrackedPaths checkout)

def candidates : Candidates :=
  (visiblePaths checkout).foldl (collect checkout) ⟨[], [], []⟩

def winners : Winners :=
  let found := candidates checkout
  (sortedSet (found.present.map (·.2.name) ++ found.excluded.map (·.name))).foldl
    (settle found) noWinners

def buildRegistryScan : RegistryScan :=
  let found := candidates checkout
  let won := winners checkout
  { odooVersion := if checkout.dispatchVersion = "" then "unknown" else checkout.dispatchVersion
    modules := won.modules
    excluded := won.excluded
    shadowed := won.shadowed
    trackedPaths := trackedPaths checkout
    finderPaths := finderPaths checkout
    untracked := untrackedPaths checkout
    missing := missingPaths checkout
    unreadable := pathSet found.unreadable
    complete := (missingPaths checkout).isEmpty && (pathSet found.unreadable).isEmpty }

end Scan

end OdooSemantic.Lifecycle.ManifestScan
