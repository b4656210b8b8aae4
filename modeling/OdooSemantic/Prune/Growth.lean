import OdooSemantic.Prune.Families

/-!
# What more files do to the models of a class

With more files a name that evaluates has at least the values it had, or no longer evaluates.
The models of a family that stays known only grow.
-/

set_option autoImplicit false

namespace OdooSemantic.Prune

open Lib.Py Lib.Closure Lib.Search

/-- Where both are known, the first is inside the second. -/
def Wider (given more : Option (List String)) : Prop :=
  ∀ names, given = some names → ∀ others, more = some others → names ⊆ others

theorem wider_none (more : Option (List String)) : Wider none more := by
  intro names known
  cases known

theorem wider_unknown (given : Option (List String)) : Wider given none := by
  intro names _ others known
  cases known

theorem wider_same (given : Option (List String)) : Wider given given := by
  intro names known others same
  rw [Option.some.inj (known.symm.trans same)]
  exact List.Subset.refl _

theorem joinAll_mem {values : List (Option (List String))} {names : List String} {name : String}
    (joined : joinAll values = some names) (listed : name ∈ names) :
    ∃ found, some found ∈ values ∧ name ∈ found := by
  induction values generalizing names with
  | nil =>
      cases joined
      cases listed
  | cons value rest ih =>
      cases value with
      | none => cases joined
      | some first =>
          obtain ⟨others, further, same⟩ := Option.map_eq_some_iff.mp joined
          rw [← same] at listed
          obtain here | later := List.mem_append.mp listed
          · exact ⟨first, List.mem_cons_self, here⟩
          · obtain ⟨found, inRest, inFound⟩ := ih further later
            exact ⟨found, List.mem_cons_of_mem _ inRest, inFound⟩

theorem joinAll_all {values : List (Option (List String))} {names : List String}
    {value : Option (List String)} (joined : joinAll values = some names)
    (listed : value ∈ values) : ∃ found, value = some found ∧ found ⊆ names := by
  induction values generalizing names with
  | nil => cases listed
  | cons first rest ih =>
      cases first with
      | none => cases joined
      | some first =>
          obtain ⟨others, further, same⟩ := Option.map_eq_some_iff.mp joined
          rw [← same]
          obtain here | later := List.mem_cons.mp listed
          · exact ⟨first, here, List.subset_append_left _ _⟩
          · obtain ⟨found, isFound, inside⟩ := ih further later
            exact ⟨found, isFound, List.Subset.trans inside (List.subset_append_right _ _)⟩

theorem wider_joinAll {values others : List (Option (List String))}
    (each : ∀ value ∈ values, ∃ other ∈ others, Wider value other) :
    Wider (joinAll values) (joinAll others) := by
  intro names joined more joinedMore name listed
  obtain ⟨found, inValues, inFound⟩ := joinAll_mem joined listed
  obtain ⟨other, inOthers, wider⟩ := each _ inValues
  obtain ⟨known, isKnown, inside⟩ := joinAll_all joinedMore inOthers
  exact inside (wider found rfl known isKnown inFound)

theorem wider_joinMap {Item : Type} {items : List Item} {value other : Item → Option (List String)}
    (each : ∀ item ∈ items, Wider (value item) (other item)) :
    Wider (joinAll (items.map value)) (joinAll (items.map other)) := by
  refine wider_joinAll fun given listed => ?_
  obtain ⟨item, itemIn, same⟩ := List.mem_map.mp listed
  rw [← same]
  exact ⟨other item, List.mem_map_of_mem itemIn, each item itemIn⟩

theorem append_grows {first second given more : List String} (left : first ⊆ given)
    (right : second ⊆ more) : first ++ second ⊆ given ++ more :=
  List.append_subset.mpr ⟨List.subset_append_of_subset_left _ left,
    List.subset_append_of_subset_right _ right⟩

theorem wider_both {first given second more : Option (List String)} :
    Wider first given → Wider second more → Wider (match first, second with
      | some names, some others => some (names ++ others)
      | _, _ => none)
      (match given, more with
      | some names, some others => some (names ++ others)
      | _, _ => none) := by
  intro left right
  cases first with
  | none => exact wider_none _
  | some names =>
      cases second with
      | none => exact wider_none _
      | some others =>
          cases given with
          | none => exact wider_unknown _
          | some namesMore =>
              cases more with
              | none => exact wider_unknown _
              | some othersMore =>
                  intro all known allMore knownMore
                  rw [← Option.some.inj known, ← Option.some.inj knownMore]
                  exact append_grows (left names rfl namesMore rfl)
                    (right others rfl othersMore rfl)

section Exprs
variable {lookup other : String → Option (List String)}

mutual

theorem wider_evalExpr (wider : ∀ name, Wider (lookup name) (other name)) :
    ∀ expr : PyExpr, Wider (evalExpr lookup expr) (evalExpr other expr)
  | .text value => wider_same _
  | .constant => wider_same _
  | .sequence _ elts => by
      rw [evalExpr, evalExpr]
      exact wider_evalElts wider elts
  | .name id => by
      rw [evalExpr, evalExpr]
      exact wider id
  | .starred _ => wider_none _
  | .attribute _ _ => wider_none _
  | .dict _ _ => wider_none _
  | .call _ _ => wider_none _
  | .other _ => wider_none _

theorem wider_evalElts (wider : ∀ name, Wider (lookup name) (other name)) :
    ∀ elts : List PyExpr, Wider (evalElts lookup elts) (evalElts other elts)
  | [] => wider_same _
  | elt :: rest => by
      intro names known more knownMore
      rw [evalElts] at known knownMore
      cases first : evalExpr lookup elt with
      | none =>
          rw [first] at known
          cases known
      | some found =>
          cases firstMore : evalExpr other elt with
          | none =>
              rw [firstMore] at knownMore
              cases knownMore
          | some foundMore =>
              rw [first] at known
              rw [firstMore] at knownMore
              obtain ⟨tail, isTail, same⟩ := Option.map_eq_some_iff.mp known
              obtain ⟨tailMore, isTailMore, sameMore⟩ := Option.map_eq_some_iff.mp knownMore
              rw [← same, ← sameMore]
              exact append_grows
                (wider_evalExpr wider elt found first foundMore firstMore)
                (wider_evalElts wider rest tail isTail tailMore isTailMore)

end

end Exprs

/-- The file of a module that has more files: an import may turn out to leave the module. -/
structure FileGrows (file more : FileIndex) : Prop where
  path : more.path = file.path
  bindings : more.bindings = file.bindings
  classes : more.classes = file.classes
  imported : ∀ name, (more.importOf name).isSome = (file.importOf name).isSome
  internal : ∀ name original, file.importOf name = some (.internal original) →
    more.importOf name = some (.internal original) ∨ more.importOf name = some .external
  stars : (more.starInternal || more.starExternal) = (file.starInternal || file.starExternal)

structure IndexGrows (index more : PyIndex) : Prop where
  found : ∀ path file, index.file? path = some file →
    ∃ other, more.file? path = some other ∧ FileGrows file other
  files : ∀ file ∈ index.files, (index.file? file.path).isSome = true ∧
    ∃ other ∈ more.files, FileGrows file other

section Names
variable {index more : PyIndex} (grows : IndexGrows index more)
include grows

theorem grown_classes {cls : PyClass} (listed : cls ∈ index.classes) : cls ∈ more.classes := by
  obtain ⟨file, fileIn, inFile⟩ := List.mem_flatMap.mp listed
  obtain ⟨other, otherIn, fileGrows⟩ := (grows.files file fileIn).2
  rw [← fileGrows.classes] at inFile
  exact List.mem_flatMap.mpr ⟨other, otherIn, inFile⟩

theorem grown_bindings {path : String} (indexed : (index.file? path).isSome = true)
    (name : String) : more.fileBindings path name = index.fileBindings path name := by
  obtain ⟨file, isFile⟩ := Option.isSome_iff_exists.mp indexed
  obtain ⟨other, isOther, fileGrows⟩ := grows.found path file isFile
  rw [PyIndex.fileBindings, PyIndex.fileBindings, isFile, isOther]
  simp only [fileGrows.bindings]

theorem grown_boundOutside {path : String} (indexed : (index.file? path).isSome = true)
    (name : String) : more.boundOutside path name = index.boundOutside path name := by
  obtain ⟨file, isFile⟩ := Option.isSome_iff_exists.mp indexed
  obtain ⟨other, isOther, fileGrows⟩ := grows.found path file isFile
  have imported := fileGrows.imported name
  have stars := fileGrows.stars
  rw [PyIndex.boundOutside, PyIndex.boundOutside, grown_bindings grows indexed,
    PyIndex.importOf, PyIndex.importOf, PyIndex.inStarInternal, PyIndex.inStarInternal,
    PyIndex.inStarExternal, PyIndex.inStarExternal, isFile, isOther]
  simp only [Option.bind_some, Option.any_some, Bool.or_assoc]
  rw [imported, stars]

theorem grown_otherBindings {path name : String} {pair : String × Option PyExpr}
    (listed : pair ∈ index.otherBindings path name) :
    (index.file? pair.1).isSome = true ∧ pair ∈ more.otherBindings path name := by
  obtain ⟨file, fileIn, bound⟩ := List.mem_flatMap.mp listed
  obtain ⟨inFiles, differ⟩ := List.mem_filter.mp fileIn
  obtain ⟨indexed, other, otherIn, fileGrows⟩ := grows.files file inFiles
  obtain ⟨value, isBound, same⟩ := List.mem_map.mp bound
  rw [← same]
  refine ⟨indexed, List.mem_flatMap.mpr ⟨other, List.mem_filter.mpr ⟨otherIn, ?_⟩, ?_⟩⟩
  · rw [fileGrows.path]
    exact differ
  · rw [fileGrows.bindings, fileGrows.path]
    exact List.mem_map_of_mem isBound

section Step
variable {deep : Bool} {recur recurMore : NameValue}
  (wider : ∀ cls path seen name, (index.file? path).isSome = true →
    Wider (recur cls path seen name) (recurMore cls path seen name))
include wider

omit grows in
theorem wider_evalValue (cls : Option PyClass) {path : String} (seen : List SeenName)
    (value : Option PyExpr) (indexed : (index.file? path).isSome = true) :
    Wider (evalValue deep recur seen cls path value) (evalValue deep recurMore seen cls path value) := by
  cases deep with
  | true => exact wider_none _
  | false =>
      cases value with
      | none => exact wider_none _
      | some expr => exact wider_evalExpr (fun name => wider cls path seen name indexed) expr

theorem wider_moduleWide (path : String) (seen : List SeenName) (name : String) :
    Wider (evalModuleWide index deep recur path seen name)
      (evalModuleWide more deep recurMore path seen name) := by
  rw [evalModuleWide, evalModuleWide]
  by_cases empty : (index.otherBindings path name).isEmpty = true
  · simp only [empty, if_true]
    exact wider_none _
  · by_cases emptyMore : (more.otherBindings path name).isEmpty = true
    · simp only [emptyMore, if_true]
      exact wider_unknown _
    · simp only [if_neg empty, if_neg emptyMore]
      refine wider_joinAll fun value listed => ?_
      obtain ⟨pair, pairIn, same⟩ := List.mem_map.mp listed
      obtain ⟨indexed, inMore⟩ := grown_otherBindings grows pairIn
      rw [← same]
      exact ⟨_, List.mem_map_of_mem inMore, wider_evalValue wider none seen pair.2 indexed⟩

theorem wider_outside {path : String} (seen : List SeenName) (name : String)
    (indexed : (index.file? path).isSome = true) :
    Wider (evalOutside index deep recur path seen name)
      (evalOutside more deep recurMore path seen name) := by
  obtain ⟨file, isFile⟩ := Option.isSome_iff_exists.mp indexed
  obtain ⟨other, isOther, fileGrows⟩ := grows.found path file isFile
  have importIs : index.importOf path name = file.importOf name := by
    rw [PyIndex.importOf, isFile, Option.bind_some]
  have importMore : more.importOf path name = other.importOf name := by
    rw [PyIndex.importOf, isOther, Option.bind_some]
  have mine : Wider (joinAll ((index.fileBindings path name).map
        (evalValue deep recur seen none path)))
      (joinAll ((index.fileBindings path name).map (evalValue deep recurMore seen none path))) :=
    wider_joinMap fun value _ => wider_evalValue wider none seen value indexed
  rw [evalOutside, evalOutside, grown_bindings grows indexed, importIs, importMore]
  cases imported : file.importOf name with
  | none =>
      have notImported : other.importOf name = none := by
        have same := fileGrows.imported name
        rw [imported] at same
        exact Option.isNone_iff_eq_none.mp (by rw [← Option.not_isSome, same]; rfl)
      simp only [notImported]
      cases bound : index.fileBindings path name with
      | cons first rest =>
          rw [bound] at mine
          exact mine
      | nil =>
          have further : Wider (evalModuleWide index deep recur path seen name)
              (evalModuleWide more deep recurMore path seen name) :=
            wider_moduleWide grows wider path seen name
          have stars := fileGrows.stars
          simp only [List.isEmpty_nil, Bool.not_true, PyIndex.inStarExternal,
            PyIndex.inStarInternal, isFile, isOther, Option.any_some]
          cases outside : file.starExternal with
          | true => exact wider_none _
          | false =>
              cases inside : file.starInternal with
              | false => exact wider_none _
              | true =>
                  rw [outside, inside] at stars
                  cases leaves : other.starExternal with
                  | true => exact wider_unknown _
                  | false =>
                      rw [leaves, Bool.or_false] at stars
                      rw [stars]
                      exact further
  | some what =>
      cases what with
      | external => exact wider_none _
      | internal original =>
          have further : Wider (evalModuleWide index deep recur path seen original)
              (evalModuleWide more deep recurMore path seen original) :=
            wider_moduleWide grows wider path seen original
          obtain stays | leaves := fileGrows.internal name original imported
          · simp only [stays]
            by_cases unbound : (index.fileBindings path name).isEmpty = true
            · simp only [unbound, if_true]
              exact further
            · simp only [if_neg unbound]
              exact wider_both further mine
          · simp only [leaves]
            exact wider_unknown _

theorem wider_body (cls : Option PyClass) {path : String} (seen : List SeenName) (name : String)
    (indexed : (index.file? path).isSome = true) :
    Wider (evalBody index deep recur path seen cls name)
      (evalBody more deep recurMore path seen cls name) := by
  have outside : Wider (evalOutside index deep recur path seen name)
      (evalOutside more deep recurMore path seen name) :=
    wider_outside grows wider seen name indexed
  cases cls with
  | none => exact outside
  | some body =>
      rw [evalBody, evalBody]
      by_cases unbound : (boundTo body.bindings name).isEmpty = true
      · simp only [unbound, if_true]
        exact outside
      · have mine : Wider (joinAll ((boundTo body.bindings name).map
              (evalValue deep recur seen (some body) path)))
            (joinAll ((boundTo body.bindings name).map
              (evalValue deep recurMore seen (some body) path))) :=
          wider_joinMap fun value _ => wider_evalValue wider (some body) seen value indexed
        simp only [if_neg unbound, grown_boundOutside grows indexed]
        cases inClass : joinAll ((boundTo body.bindings name).map
            (evalValue deep recur seen (some body) path)) with
        | none => exact wider_none _
        | some names =>
            cases inClassMore : joinAll ((boundTo body.bindings name).map
                (evalValue deep recurMore seen (some body) path)) with
            | none => exact wider_unknown _
            | some namesMore =>
                have inside := mine names inClass namesMore inClassMore
                cases index.boundOutside path name with
                | false =>
                    intro given known others knownMore
                    rw [← Option.some.inj known, ← Option.some.inj knownMore]
                    exact inside
                | true =>
                    intro given known others knownMore
                    obtain ⟨outer, isOuter, same⟩ := Option.map_eq_some_iff.mp known
                    obtain ⟨outerMore, isOuterMore, sameMore⟩ :=
                      Option.map_eq_some_iff.mp knownMore
                    rw [← same, ← sameMore]
                    exact append_grows inside
                      (wider none path seen name indexed outer isOuter outerMore isOuterMore)

end Step

theorem wider_evalName {left : Nat} : ∀ (cls : Option PyClass) (path : String)
    (seen : List SeenName) (name : String), (index.file? path).isSome = true →
    Wider (evalName index left cls path seen name) (evalName more left cls path seen name) := by
  induction left with
  | zero =>
      intro cls path seen name _
      exact wider_none _
  | succ left ih =>
      intro cls path seen name indexed
      rw [evalName, evalName]
      by_cases cycle : (cls.map PyClass.key, path, name) ∈ seen
      · simp only [if_pos cycle]
        exact wider_none _
      · simp only [if_neg cycle]
        exact wider_body grows ih cls _ name indexed

theorem wider_ownModels {cls : PyClass} (indexed : (index.file? cls.path).isSome = true) :
    Wider (ownModels index cls) (ownModels more cls) := by
  rw [ownModels, ownModels]
  cases cls.hasMeta with
  | false => exact wider_none _
  | true =>
      exact wider_joinMap fun value _ => wider_evalExpr
        (fun name => wider_evalName grows (some cls) cls.path [] name indexed) value

theorem grown_parents (cls : PyClass) {base : PyClass} (listed : base ∈ index.parents.next cls) :
    base ∈ more.parents.next cls := by
  obtain ⟨name, isBase, named⟩ := List.mem_flatMap.mp listed
  obtain ⟨inClasses, isName⟩ := (mem_byName index).mp named
  exact List.mem_flatMap.mpr ⟨name, isBase,
    (mem_byName more).mpr ⟨grown_classes grows inClasses, isName⟩⟩

theorem grown_offspring (cls : PyClass) {heir : PyClass}
    (listed : heir ∈ index.offspring.next cls) : heir ∈ more.offspring.next cls := by
  obtain ⟨inClasses, derives⟩ := (mem_children index).mp listed
  exact (mem_children more).mpr ⟨grown_classes grows inClasses, derives⟩

theorem grown_family {cls member : PyClass} (inFamily : index.InFamily cls member) :
    more.InFamily cls member := by
  obtain ⟨heir, derived, reached⟩ := inFamily
  refine ⟨heir, derived.wider (fun cls _ => grown_offspring grows cls) (fun _ => id),
    reached.wider (fun cls _ => grown_parents grows cls) fun cls isOpen => ?_⟩
  exact identity_none.mpr (identity_none.mp isOpen)

/-- The models of a family that is known in both only grow. -/
theorem wider_effectiveModels (distinct : more.parents.Distinct)
    (indexed : ∀ cls ∈ index.classes, (index.file? cls.path).isSome = true) {cls : PyClass}
    (listed : cls ∈ index.classes) :
    Wider (index.effectiveModels cls) (more.effectiveModels cls) := by
  intro models known others knownMore model inModels
  obtain ⟨member, names, inFamily, identified, isOwn, inNames⟩ :=
    effectiveModels_named known inModels
  obtain ⟨own, isOwnMore, inside⟩ := effectiveModels_all distinct (grown_classes grows listed)
    knownMore (grown_family grows inFamily) identified
  have wider := wider_ownModels grows (indexed member (inFamily_listed listed inFamily))
  exact inside (wider names isOwn own isOwnMore inNames)

end Names

structure MoreText (source more : ModuleSource) : Prop where
  module : more.module = source.module
  available : more.available = true → source.available = true
  prefixes : source.prefixes ⊆ more.prefixes
  absentPrefixes : source.absentPrefixes ⊆ more.absentPrefixes
  texts : ∀ path text, source.text? path = some text → more.text? path = some text

/-- The same name; one from the module may now be from outside. -/
def SameImport (first second : String × Imported) : Prop :=
  first.1 = second.1 ∧ ∀ original, first.2 = .internal original →
    second.2 = .internal original ∨ second.2 = .external

theorem stmtImports_related (first second : Nat → Option String → Bool) (stmt : PyStmt) :
    List.Forall₂ SameImport (stmtImports first stmt) (stmtImports second stmt) := by
  cases stmt with
  | importFrom line level name aliases =>
      rw [stmtImports, stmtImports, List.forall₂_map_left_iff, List.forall₂_map_right_iff]
      refine List.forall₂_same.mpr fun imported _ => ⟨rfl, fun original isInternal => ?_⟩
      by_cases inFirst : first level name = true
      · simp only [inFirst, if_true, Imported.internal.injEq] at isInternal
        rw [← isInternal]
        cases second level name with
        | false => exact Or.inr rfl
        | true => exact Or.inl rfl
      · simp only [if_neg inFirst, reduceCtorEq] at isInternal
  | importNames line aliases =>
      rw [stmtImports, stmtImports]
      exact List.forall₂_same.mpr fun imported listed => ⟨rfl, fun _ isInternal => Or.inl isInternal⟩
  | _ => exact .nil

theorem imports_related (first second : Nat → Option String → Bool) (top : List PyStmt) :
    List.Forall₂ SameImport (top.flatMap (stmtImports first))
      (top.flatMap (stmtImports second)) := by
  induction top with
  | nil => exact .nil
  | cons stmt rest ih =>
      rw [List.flatMap_cons, List.flatMap_cons]
      exact List.rel_append (stmtImports_related first second stmt) ih

theorem stmtStar_any (first second : Nat → Option String → Bool) (stmt : PyStmt) :
    (stmtStar first true stmt || stmtStar first false stmt) =
      (stmtStar second true stmt || stmtStar second false stmt) := by
  cases stmt with
  | importFrom line level name aliases =>
      rw [stmtStar, stmtStar, stmtStar, stmtStar]
      cases aliases.any (·.name == "*") with
      | false => rfl
      | true => cases first level name <;> cases second level name <;> rfl
  | _ => rfl

theorem stars_any (first second : Nat → Option String → Bool) (top : List PyStmt) :
    (top.any (stmtStar first true) || top.any (stmtStar first false)) =
      (top.any (stmtStar second true) || top.any (stmtStar second false)) := by
  induction top with
  | nil => rfl
  | cons stmt rest ih =>
      have each := stmtStar_any first second stmt
      simp only [List.any_cons]
      calc
        _ = ((stmtStar first true stmt || stmtStar first false stmt) ||
            (rest.any (stmtStar first true) || rest.any (stmtStar first false))) := by grind
        _ = ((stmtStar second true stmt || stmtStar second false stmt) ||
            (rest.any (stmtStar second true) || rest.any (stmtStar second false))) := by
          rw [each, ih]
        _ = _ := by grind

theorem importOf_related {file more : FileIndex}
    (related : List.Forall₂ SameImport file.imports more.imports) (name : String) :
    (more.importOf name).isSome = (file.importOf name).isSome ∧
      ∀ original, file.importOf name = some (.internal original) →
        more.importOf name = some (.internal original) ∨
          more.importOf name = some .external := by
  have named : List.Forall₂ SameImport (file.imports.filter (·.1 == name))
      (more.imports.filter (·.1 == name)) := by
    refine List.rel_filter ?_ related
    intro first second same
    change (first.1 == name) = true ↔ (second.1 == name) = true
    rw [same.1]
  have reversed := List.forall₂_reverse_iff.mpr named
  rw [FileIndex.importOf, FileIndex.importOf, List.getLast?_eq_head?_reverse,
    List.getLast?_eq_head?_reverse]
  generalize (file.imports.filter (·.1 == name)).reverse = mine at reversed ⊢
  generalize (more.imports.filter (·.1 == name)).reverse = others at reversed ⊢
  cases reversed with
  | nil => exact ⟨rfl, fun original isInternal => Or.inl isInternal⟩
  | cons same _ =>
      refine ⟨rfl, fun original isInternal => ?_⟩
      rw [List.head?_cons, Option.map_some, Option.some.injEq] at isInternal ⊢
      exact (same.2 original isInternal).imp id (congrArg some)

theorem indexFile_grows (module more : String) (prefixes others : List String) (path : String)
    (body : List PyStmt) :
    FileGrows (indexFile module prefixes path body) (indexFile more others path body) where
  path := rfl
  bindings := rfl
  classes := rfl
  imported name := (importOf_related (imports_related _ _ _) name).1
  internal name := (importOf_related (imports_related _ _ _) name).2
  stars := stars_any _ _ _

section Source
variable {python : Python} {source more : ModuleSource} (moreText : MoreText source more)
include moreText

theorem grown_paths {path : String} (listed : path ∈ source.paths) : path ∈ more.paths := by
  obtain ⟨file, fileIn, same⟩ := List.mem_map.mp listed
  rw [← same]
  exact ModuleSource.text?_paths (moreText.texts file.1 file.2 (ModuleSource.text?_eq.mpr fileIn))

theorem grown_pythonFiles {path : String} (listed : path ∈ source.pythonFiles) :
    path ∈ more.pythonFiles := by
  rw [ModuleSource.pythonFiles, List.mem_filter, mem_sorted] at listed ⊢
  exact ⟨grown_paths moreText listed.1, listed.2⟩

theorem grown_tree {path : String} {body : List PyStmt}
    (parsed : source.tree? python path = some body) : more.tree? python path = some body := by
  obtain ⟨text, isText, isTree⟩ := Option.bind_eq_some_iff.mp parsed
  rw [ModuleSource.tree?, moreText.texts path text isText, Option.bind_some, isTree]

theorem pyIndex_grows : IndexGrows (pyIndex python source) (pyIndex python more) where
  found path file isFile := by
    have listed := List.mem_of_find?_eq_some isFile
    have isPath := List.find?_some isFile
    obtain ⟨other, otherIn, body, parsed, made⟩ := pyIndex_files.mp listed
    rw [← made, beq_iff_eq] at isPath
    change other = path at isPath
    rw [isPath] at otherIn parsed made
    refine ⟨_, pyIndex_file? (grown_pythonFiles moreText otherIn) (grown_tree moreText parsed), ?_⟩
    rw [← made]
    exact indexFile_grows _ _ _ _ _ _
  files file listed := by
    obtain ⟨path, pathIn, body, parsed, made⟩ := pyIndex_files.mp listed
    rw [← made]
    constructor
    · exact Option.isSome_iff_exists.mpr ⟨_, pyIndex_file? pathIn parsed⟩
    · exact ⟨_, pyIndex_files.mpr ⟨path, grown_pythonFiles moreText pathIn, body,
        grown_tree moreText parsed, rfl⟩, indexFile_grows _ _ _ _ _ _⟩

theorem grown_unparsed {path : String} (unparsed : path ∈ (pyIndex python source).unparsed) :
    path ∈ (pyIndex python more).unparsed := by
  obtain ⟨listed, isUnparsed⟩ := List.mem_filter.mp unparsed
  obtain ⟨text, isText, noTree⟩ := (Option.any_eq_true _ _).mp isUnparsed
  exact List.mem_filter.mpr ⟨grown_pythonFiles moreText listed,
    (Option.any_eq_true _ _).mpr ⟨text, moreText.texts path text isText, noTree⟩⟩

end Source

theorem python_inTrees {python : Python} {source : ModuleSource} {path : String}
    (listed : path ∈ source.pythonFiles) : (pyIndex python source).inTrees path = true := by
  rw [PyIndex.inTrees, Bool.or_eq_true, List.contains_iff_mem]
  cases parsed : source.tree? python path with
  | some body =>
      rw [pyIndex_file? listed parsed]
      exact Or.inl rfl
  | none =>
      refine Or.inr (List.mem_filter.mpr ⟨listed, ?_⟩)
      rw [ModuleSource.pythonFiles, List.mem_filter, mem_sorted] at listed
      obtain ⟨file, fileIn, same⟩ := List.mem_map.mp listed.1
      have isText : source.text? path = some file.2 := by
        rw [← same]
        exact ModuleSource.text?_eq.mpr fileIn
      rw [ModuleSource.tree?, isText, Option.bind_some] at parsed
      exact (Option.any_eq_true _ _).mpr ⟨file.2, isText, Option.isNone_iff_eq_none.mpr parsed⟩

theorem pyIndex_distinct (python : Python) (source : ModuleSource) :
    (pyIndex python source).parents.Distinct := by
  intro cls listed other otherListed sameKey
  obtain ⟨-, body, stmt, parsed, placed, made⟩ := pyIndex_class listed
  obtain ⟨-, bodyOther, stmtOther, parsedOther, placedOther, madeOther⟩ :=
    pyIndex_class otherListed
  obtain ⟨samePath, sameOrdinal⟩ := Prod.mk.inj sameKey
  rw [← samePath, parsed] at parsedOther
  rw [← sameOrdinal, ← Option.some.inj parsedOther, placed] at placedOther
  rw [made, madeOther, ← samePath, ← sameOrdinal, Option.some.inj placedOther]

theorem pyIndex_indexed {python : Python} {source : ModuleSource} {cls : PyClass}
    (listed : cls ∈ (pyIndex python source).classes) :
    ((pyIndex python source).file? cls.path).isSome = true := by
  obtain ⟨isPython, body, stmt, parsed, -⟩ := pyIndex_class listed
  rw [pyIndex_file? isPython parsed]
  rfl

end OdooSemantic.Prune
