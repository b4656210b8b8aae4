import OdooSemantic.Lifecycle.ManifestWinners

/-!
# Untracked files and the scan

Two scans of one HEAD tree, the second with untracked files added.  The finder picks one
manifest of each directory before it asks git, so an added manifest may hide a tracked one.
-/

set_option autoImplicit false

namespace OdooSemantic.Lifecycle.ManifestScan

open Lib.Py

/-- The working tree after untracked files were added, with the directories they need. -/
structure AddsUntracked (checkout : Checkout) (disk : AList fun _ : ManifestPath => DiskEntry)
    (raw : List ManifestPath) : Prop where
  kept : ∀ path entry, checkout.disk.lookup path = some entry → disk.lookup path = some entry
  untracked : ∀ path text, disk.lookup path = some (.file text) → path ∉ checkout.disk →
    path ∉ raw

structure SameResults (one other : RegistryScan) : Prop where
  modules : one.modules = other.modules
  excluded : one.excluded = other.excluded
  missing : one.missing = other.missing
  complete : one.complete = other.complete

def Tracked (checkout : Checkout) (raw : List ManifestPath) : ManifestPath → Prop :=
  Dispatched (manifestEra checkout.dispatchVersion) (· ∈ raw)

/-- The path is a `__openerp__.py` of the dual era beside a `__manifest__.py`. -/
def Hidden (checkout : Checkout) (disk : AList fun _ : ManifestPath => DiskEntry)
    (path : ManifestPath) : Prop :=
  manifestEra checkout.dispatchVersion = .dual ∧ path.file = .openerp ∧
    path.sibling .manifest ∈ disk

/-- No addition stands where a tracked manifest is missing, and none hides a tracked one. -/
structure Undisturbed (checkout : Checkout) (disk : AList fun _ : ManifestPath => DiskEntry)
    (raw : List ManifestPath) : Prop where
  vacant : ∀ path, Tracked checkout raw path → path ∉ checkout.disk → path ∈ disk →
    Hidden checkout disk path
  shown : ∀ path, Tracked checkout raw path → path ∈ checkout.disk → Hidden checkout disk path →
    Hidden checkout checkout.disk path

section Untracked
variable {checkout : Checkout} {disk : AList fun _ : ManifestPath => DiskEntry}
  {raw : List ManifestPath} {path : ManifestPath}

theorem mem_finderPaths (isTracked : Tracked checkout raw path) :
    path ∈ finderPaths checkout ↔ path ∈ checkout.disk ∧ ¬ Hidden checkout checkout.disk path := by
  obtain ⟨-, plain, ofEra⟩ := isTracked
  rw [finderPaths, mem_pathSet, mem_findManifests, Dispatched, Hidden]
  refine and_congr_right fun _ => ?_
  rcases ofEra with ⟨isLegacy, file⟩ | ⟨isModern, file⟩ | ⟨isDual, -⟩
  · simp [plain, isLegacy, file]
  · simp [plain, isModern, file]
  · simp [plain, isDual]

theorem mem_trackedPaths (isGit : checkout.tracked = some raw) :
    ∃ tracked, trackedPaths checkout = some tracked ∧
      ∀ path, path ∈ tracked ↔ Tracked checkout raw path := by
  refine ⟨pathSet (filterManifestPaths raw checkout.dispatchVersion), ?_, fun path => ?_⟩
  · rw [trackedPaths, isGit]
    rfl
  · rw [mem_pathSet, mem_filterManifestPaths]
    rfl

theorem mem_missingPaths (isGit : checkout.tracked = some raw) :
    path ∈ missingPaths checkout ↔ Tracked checkout raw path ∧ path ∉ finderPaths checkout := by
  obtain ⟨tracked, isTracked, members⟩ := mem_trackedPaths isGit
  rw [missingPaths, isTracked]
  simp [members]

theorem mem_visiblePaths (isGit : checkout.tracked = some raw) :
    path ∈ visiblePaths checkout ↔ Tracked checkout raw path ∧ path ∈ finderPaths checkout := by
  obtain ⟨tracked, isTracked, members⟩ := mem_trackedPaths isGit
  rw [visiblePaths, untrackedPaths, isTracked]
  simp only [List.mem_filter, decide_not, Bool.not_eq_eq_eq_not, Bool.not_true,
    decide_eq_false_iff_not, not_and, not_not, members]
  tauto

theorem finderPaths_iff (adds : AddsUntracked checkout disk raw) :
    (∀ path, Tracked checkout raw path →
      (path ∈ finderPaths { checkout with disk } ↔ path ∈ finderPaths checkout)) ↔
        Undisturbed checkout disk raw := by
  have grows : ∀ path, path ∈ checkout.disk → path ∈ disk := by
    intro path member
    obtain ⟨entry, found⟩ := Option.isSome_iff_exists.mp (AList.lookup_isSome.mpr member)
    exact AList.lookup_isSome.mp (by rw [adds.kept path entry found]; rfl)
  have hiddenGrows : ∀ path, Hidden checkout checkout.disk path → Hidden checkout disk path :=
    fun path isHidden => ⟨isHidden.1, isHidden.2.1, grows _ isHidden.2.2⟩
  have after : ∀ path, Tracked checkout raw path → (path ∈ finderPaths { checkout with disk } ↔
      path ∈ disk ∧ ¬ Hidden checkout disk path) :=
    fun path isTracked => @mem_finderPaths { checkout with disk } raw path isTracked
  constructor
  · intro same
    refine ⟨fun path isTracked absent added => ?_, fun path isTracked present isHidden => ?_⟩
    · by_contra shown
      have found := (same path isTracked).mp ((after path isTracked).mpr ⟨added, shown⟩)
      exact absent ((mem_finderPaths isTracked).mp found).1
    · by_contra shown
      have found := (same path isTracked).mpr ((mem_finderPaths isTracked).mpr ⟨present, shown⟩)
      exact ((after path isTracked).mp found).2 isHidden
  · intro undisturbed path isTracked
    rw [after path isTracked, mem_finderPaths isTracked]
    constructor
    · rintro ⟨member, shown⟩
      by_cases present : path ∈ checkout.disk
      · exact ⟨present, fun isHidden => shown (hiddenGrows path isHidden)⟩
      · exact absurd (undisturbed.vacant path isTracked present member) shown
    · rintro ⟨present, shown⟩
      exact ⟨grows path present,
        fun isHidden => shown (undisturbed.shown path isTracked present isHidden)⟩

theorem missingPaths_iff (isGit : checkout.tracked = some raw) :
    missingPaths { checkout with disk } = missingPaths checkout ↔
      ∀ path, Tracked checkout raw path →
        (path ∈ finderPaths { checkout with disk } ↔ path ∈ finderPaths checkout) := by
  have after : ∀ path, path ∈ missingPaths { checkout with disk } ↔
      Tracked checkout raw path ∧ path ∉ finderPaths { checkout with disk } :=
    fun path => @mem_missingPaths { checkout with disk } raw path isGit
  constructor
  · intro same path isTracked
    have members : path ∈ missingPaths { checkout with disk } ↔ path ∈ missingPaths checkout := by
      rw [same]
    rw [after, mem_missingPaths isGit] at members
    exact not_iff_not.mp ((and_congr_right_iff.mp members) isTracked)
  · intro same
    obtain ⟨tracked, isTracked, members⟩ := mem_trackedPaths isGit
    have isTracked' : trackedPaths { checkout with disk } = some tracked := isTracked
    rw [missingPaths, missingPaths, isTracked, isTracked']
    refine List.filter_congr fun path member => ?_
    rw [decide_eq_decide]
    exact not_congr (same path ((members path).mp member))

theorem visiblePaths_sorted (checkout : Checkout) :
    (visiblePaths checkout).Pairwise fun first second => first.text ≤ second.text :=
  (sortedBy_pairwise _ _).filter _

theorem candidates_same (adds : AddsUntracked checkout disk raw)
    (isGit : checkout.tracked = some raw)
    (same : ∀ path, Tracked checkout raw path →
      (path ∈ finderPaths { checkout with disk } ↔ path ∈ finderPaths checkout)) :
    candidates { checkout with disk } = candidates checkout := by
  have walked : visiblePaths { checkout with disk } = visiblePaths checkout := by
    have perm : (visiblePaths { checkout with disk }).Perm (visiblePaths checkout) := by
      refine (List.perm_ext_iff_of_nodup visiblePaths_nodup visiblePaths_nodup).mpr fun path => ?_
      rw [mem_visiblePaths isGit, @mem_visiblePaths { checkout with disk } raw path isGit]
      exact and_congr_right fun isTracked => same path isTracked
    exact perm.eq_of_pairwise
      (fun _ _ _ _ least least' => ManifestPath.text_inj (le_antisymm least least'))
      (visiblePaths_sorted _) (visiblePaths_sorted _)
  have read : ∀ path ∈ visiblePaths checkout,
      examine { checkout with disk } path = examine checkout path := by
    intro path visible
    obtain ⟨isTracked, found⟩ := (mem_visiblePaths isGit).mp visible
    obtain ⟨entry, onDisk⟩ := Option.isSome_iff_exists.mp
      (AList.lookup_isSome.mpr ((mem_finderPaths isTracked).mp found).1)
    simp only [examine, exclude, buildModuleInfo, Checkout.moduleName,
      Checkout.readManifestSource, onDisk, adds.kept path entry onDisk]
  have step : ∀ found, ∀ path ∈ visiblePaths checkout,
      collect { checkout with disk } found path = collect checkout found path := by
    intro found path visible
    rw [collect, collect, read path visible]
  rw [candidates, candidates, walked]
  exact List.foldl_ext _ _ _ fun found path visible => step found path visible

end Untracked

def moduleDir : RelPath := ⟨["l10n_xx"], by decide⟩

/-- A checkout of version 10 with one tracked module that ships `__openerp__.py`. -/
def legacyCheckout : Checkout where
  repoName := "addons"
  repoVersion := some "10.0"
  profileVersion := none
  disk := (∅ : AList fun _ : ManifestPath => DiskEntry).insert ⟨moduleDir, .openerp⟩
    (.file (some "\x7b'name': 'Localization'\x7d"))
  tracked := some [⟨moduleDir, .openerp⟩]
  parseManifestSource _ := some ⟨none, true, none, [("name", "'Localization'")]⟩
  moduleCommitSha _ := none

/-- The same working tree with an untracked `__manifest__.py` in the module. -/
def legacyDiskAfter : AList fun _ : ManifestPath => DiskEntry :=
  legacyCheckout.disk.insert ⟨moduleDir, .manifest⟩ (.file (some "\x7b'name': 'Localization'\x7d"))

theorem legacy_adds : AddsUntracked legacyCheckout legacyDiskAfter [⟨moduleDir, .openerp⟩] := by
  have onDisk : ∀ path, path ≠ ⟨moduleDir, .manifest⟩ →
      legacyDiskAfter.lookup path = legacyCheckout.disk.lookup path :=
    fun path other => AList.lookup_insert_ne other
  refine ⟨fun path entry found => ?_, fun path text found absent => ?_⟩
  · by_cases added : path = ⟨moduleDir, .manifest⟩
    · subst added
      have absent : legacyCheckout.disk.lookup ⟨moduleDir, .manifest⟩ = none := by decide
      rw [absent] at found
      cases found
    · rw [onDisk path added, found]
  · by_cases added : path = ⟨moduleDir, .manifest⟩
    · subst added
      decide
    · rw [onDisk path added] at found
      exact absurd (AList.lookup_isSome.mp (by rw [found]; rfl)) absent

section Results
variable {checkout : Checkout} {disk : AList fun _ : ManifestPath => DiskEntry}
  {raw : List ManifestPath}

/-- Added untracked files leave the results as they are exactly when they disturb no tracked
manifest. -/
theorem buildRegistryScan_untracked_iff (adds : AddsUntracked checkout disk raw)
    (isGit : checkout.tracked = some raw) :
    SameResults (buildRegistryScan { checkout with disk }) (buildRegistryScan checkout) ↔
      Undisturbed checkout disk raw := by
  rw [← finderPaths_iff adds]
  constructor
  · intro same
    refine (missingPaths_iff isGit).mp ?_
    have missing := same.missing
    simp only [buildRegistryScan] at missing
    exact missing
  · intro same
    have missing := (missingPaths_iff isGit).mpr same
    have found := candidates_same adds isGit same
    have won : winners { checkout with disk } = winners checkout := by
      rw [winners, winners, found]
    refine ⟨?_, ?_, ?_, ?_⟩ <;> simp only [buildRegistryScan, won, found, missing]

theorem legacy_untracked_iff :
    SameResults (buildRegistryScan { legacyCheckout with disk := legacyDiskAfter })
      (buildRegistryScan legacyCheckout) ↔
        Undisturbed legacyCheckout legacyDiskAfter [⟨moduleDir, .openerp⟩] :=
  buildRegistryScan_untracked_iff legacy_adds rfl

/-- The untracked `__manifest__.py` hides the tracked module, which is then missing. -/
theorem untracked_manifest_hides :
    ¬ ∀ (checkout : Checkout) (disk : AList fun _ : ManifestPath => DiskEntry)
        (raw : List ManifestPath), AddsUntracked checkout disk raw → checkout.tracked = some raw →
      SameResults (buildRegistryScan { checkout with disk }) (buildRegistryScan checkout) := by
  intro same
  have missing := (same legacyCheckout legacyDiskAfter _ legacy_adds rfl).missing
  simp only [buildRegistryScan] at missing
  have undisturbed := (finderPaths_iff legacy_adds).mp ((missingPaths_iff rfl).mp missing)
  have isDual : manifestEra legacyCheckout.dispatchVersion = .dual := by decide +kernel
  have isTracked : Tracked legacyCheckout [⟨moduleDir, .openerp⟩] ⟨moduleDir, .openerp⟩ :=
    ⟨by decide, by decide, Or.inr (Or.inr ⟨isDual, fun _ => by decide⟩)⟩
  have isHidden : Hidden legacyCheckout legacyDiskAfter ⟨moduleDir, .openerp⟩ :=
    ⟨isDual, rfl, by decide⟩
  exact absurd (undisturbed.shown _ isTracked (by decide) isHidden).2.2 (by decide)

end Results

end OdooSemantic.Lifecycle.ManifestScan
