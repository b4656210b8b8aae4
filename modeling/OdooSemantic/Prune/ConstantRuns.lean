import OdooSemantic.Prune.ParserScopes

/-!
# Runs of the constant resolver

Every call reads a file that was not read before or goes one import further, so the depth of the
calls is bounded by the number of files and the bound on the imports.  What a lookup returns is
given by an assignment that the imports lead to.
-/

set_option autoImplicit false

namespace OdooSemantic.Prune.ConstantRuns

open Lib.Py

section Depth
variable (python : Python) (addon : Addon)

/-- One call of `lookup_in`, whose own calls `follow` answers. -/
def lookupStep (follow : Follow) : Follow := fun candidates name seen hops scopes =>
  match candidates.findSome? addon.fileAt with
  | none => (none, scopes)
  | some path =>
      if seen.contains (path, name) then (none, scopes)
      else
        match scopeOfFile python addon follow path scopes with
        | (none, scopes) => (none, scopes)
        | (some entries, scopes) =>
            lookupScope follow entries none ((path, name) :: seen) hops name scopes

/-- Calls nested so deep, below which `base` answers. -/
def lookupFrom (base : Follow) : Nat → Follow
  | 0 => base
  | depth + 1 => lookupStep python addon (lookupFrom base depth)

theorem lookupIn_eq (depth : Nat) :
    lookupIn python addon depth =
      lookupFrom python addon (fun _ _ _ _ scopes => (none, scopes)) depth := by
  induction depth with
  | zero => rfl
  | succ depth ih =>
      rw [lookupFrom, ← ih]
      rfl

/-- The files that are not read yet. -/
def unread (scopes : Scopes) : Nat :=
  (addon.source.pythonFiles.filter fun path => (scopes.get? path).isNone).length

/-- How deep the calls below a call can be. -/
def need (left hops : Nat) : Nat := (maxImportHops + 1) * left + (maxImportHops - hops) + 1

/-- How deep calls are at most. -/
def depthBound : Nat := need addon.source.pythonFiles.length 0

def resolver : Follow := lookupIn python addon (depthBound addon)

end Depth

section Congruence
variable {keeps : Scopes → Prop} {lookup other : Lookup}

mutual

theorem evaluate_congr (same : ∀ id scopes, keeps scopes → lookup id scopes = other id scopes)
    (kept : ∀ id scopes, keeps scopes → keeps (lookup id scopes).2) :
    ∀ (expr : PyExpr) (scopes : Scopes), keeps scopes →
      evaluate lookup expr scopes = evaluate other expr scopes
  | .name id, scopes, holds => same id scopes holds
  | .sequence .tuple elts, scopes, holds => by
      rw [evaluate, evaluate, evaluateItems_congr same kept elts scopes holds]
  | .sequence .list elts, scopes, holds => by
      rw [evaluate, evaluate, evaluateItems_congr same kept elts scopes holds]
  | .sequence .set _, _, _ => rfl
  | .text _, _, _ => rfl
  | .constant, _, _ => rfl
  | .starred _, _, _ => rfl
  | .attribute _ _, _, _ => rfl
  | .dict _ _, _, _ => rfl
  | .call _ _, _, _ => rfl
  | .other _, _, _ => rfl

theorem evaluateItems_congr
    (same : ∀ id scopes, keeps scopes → lookup id scopes = other id scopes)
    (kept : ∀ id scopes, keeps scopes → keeps (lookup id scopes).2) :
    ∀ (elts : List PyExpr) (scopes : Scopes), keeps scopes →
      evaluateItems lookup elts scopes = evaluateItems other elts scopes
  | [], _, _ => rfl
  | elt :: rest, scopes, holds => by
      have first := evaluate_keeps kept elt scopes holds
      rw [evaluateItems, evaluateItems, ← evaluate_congr same kept elt scopes holds]
      split
      next item later found =>
        rw [found] at first
        rw [evaluateItems_congr same kept rest later first]
      next => rfl

end

variable {python : Python} {addon : Addon} {follow another : Follow}

def AgreeOn (keeps : Scopes → Prop) (follow another : Follow) : Prop :=
  ∀ candidates name scopes, keeps scopes →
    follow candidates name [] 1 scopes = another candidates name [] 1 scopes ∧
      keeps (follow candidates name [] 1 scopes).2

variable {scopes : Scopes}

theorem lookupScope_congr (keeps : Scopes → Prop) (entries : List Entry) (before : Option Nat)
    {seen : List (String × String)} {hops : Nat} (holds : keeps scopes)
    (agree : hops < maxImportHops → ∀ candidates sourceName,
      follow candidates sourceName seen (hops + 1) scopes =
          another candidates sourceName seen (hops + 1) scopes ∧
        keeps (follow candidates sourceName seen (hops + 1) scopes).2) (name : String) :
    lookupScope follow entries before seen hops name scopes =
        lookupScope another entries before seen hops name scopes ∧
      keeps (lookupScope follow entries before seen hops name scopes).2 := by
  rw [lookupScope, lookupScope]
  cases boundBefore entries before name with
  | none => exact ⟨rfl, holds⟩
  | some entry =>
      dsimp only
      cases entry.binding with
      | value value => exact ⟨rfl, holds⟩
      | imported candidates sourceName =>
          dsimp only
          by_cases far : maxImportHops ≤ hops
          · rw [if_pos far, if_pos far]
            exact ⟨rfl, holds⟩
          · rw [if_neg far, if_neg far]
            exact agree (by omega) candidates sourceName

theorem recordStmt_congr (agree : AgreeOn keeps follow another) (path : String)
    (entries : List Entry) (stmt : PyStmt) (holds : keeps scopes) :
    recordStmt follow addon path entries scopes stmt =
        recordStmt another addon path entries scopes stmt ∧
      keeps (recordStmt follow addon path entries scopes stmt).2 := by
  rw [recordStmt, recordStmt]
  cases plainAssign? stmt with
  | some pair =>
      have looked := fun id scopes (holds : keeps scopes) =>
        lookupScope_congr keeps entries (some (stmtLine stmt)) holds
          (fun _ candidates sourceName => agree candidates sourceName scopes holds) id
      have same := evaluate_congr (fun id scopes holds => (looked id scopes holds).1)
        (fun id scopes holds => (looked id scopes holds).2) pair.2 scopes holds
      have kept := evaluate_keeps (fun id scopes holds => (looked id scopes holds).2) pair.2 scopes
        holds
      dsimp only
      rw [← same]
      exact ⟨rfl, kept⟩
  | none =>
      cases addonImport? addon path stmt with
      | some pair | none => exact ⟨rfl, holds⟩

theorem buildScope_congr (addon : Addon) (agree : AgreeOn keeps follow another) (path : String)
    (body : List PyStmt) (holds : keeps scopes) :
    buildScope follow addon path body scopes = buildScope another addon path body scopes ∧
      keeps (buildScope follow addon path body scopes).2 := by
  rw [buildScope, buildScope]
  generalize ([] : List Entry) = entries
  induction body generalizing entries scopes with
  | nil => exact ⟨rfl, holds⟩
  | cons stmt rest ih =>
      obtain ⟨same, kept⟩ := recordStmt_congr agree path entries stmt holds
      rw [List.foldl_cons, List.foldl_cons]
      dsimp only
      rw [← same]
      exact ih kept _

theorem get?_put (scopes : Scopes) (path other : String) (scope : Option (List Entry)) :
    (scopes.put path scope).get? other = if path = other then some scope else scopes.get? other := by
  by_cases same : path = other
  · rw [if_pos same, same, get?_put_self]
  · rw [if_neg same, get?_put_other scope same]

theorem unread_put_le (scopes : Scopes) (path : String) (scope : Option (List Entry)) :
    unread addon (scopes.put path scope) ≤ unread addon scopes := by
  refine List.Sublist.length_le (List.monotone_filter_right _ fun other isNew => ?_)
  rw [get?_put] at isNew
  split at isNew
  · cases isNew
  · exact isNew

theorem unread_put_lt {path : String} (listed : path ∈ addon.source.pythonFiles)
    (new : scopes.get? path = none) (scope : Option (List Entry)) :
    unread addon (scopes.put path scope) < unread addon scopes := by
  have split : (addon.source.pythonFiles.filter fun other =>
      ((scopes.put path scope).get? other).isNone) =
        (addon.source.pythonFiles.filter fun other => (scopes.get? other).isNone).filter
          fun other => path ≠ other := by
    rw [List.filter_filter]
    refine List.filter_congr fun other _ => ?_
    rw [get?_put]
    by_cases same : path = other
    · simp only [same, if_true, Option.isNone_some, ne_eq, not_true, decide_false, Bool.false_and]
    · simp only [same, if_false, ne_eq, not_false_eq_true, decide_true, Bool.true_and]
  rw [unread, unread, split]
  refine List.length_filter_lt_length_iff_exists.mpr ⟨path, ?_, ?_⟩
  · rw [List.mem_filter, new]
    exact ⟨listed, rfl⟩
  · rw [decide_eq_true_eq]
    exact fun differs => differs rfl

theorem scopeOfFile_congr (python : Python) {path : String}
    (listed : path ∈ addon.source.pythonFiles)
    (agree : scopes.get? path = none → AgreeOn
      (fun later => unread addon later < unread addon scopes) follow another) :
    scopeOfFile python addon follow path scopes = scopeOfFile python addon another path scopes ∧
      unread addon (scopeOfFile python addon follow path scopes).2 ≤ unread addon scopes := by
  rw [scopeOfFile, scopeOfFile]
  cases known : scopes.get? path with
  | some scope => exact ⟨rfl, Nat.le_refl _⟩
  | none =>
      have started := unread_put_lt listed known none
      dsimp only
      cases treeAt python addon path with
      | none => exact ⟨rfl, Nat.le_of_lt started⟩
      | some body =>
          obtain ⟨same, kept⟩ := buildScope_congr addon (agree known) path body started
          dsimp only
          rw [← same]
          exact ⟨rfl, (unread_put_le _ _ _).trans (Nat.le_of_lt kept)⟩

/-- With as much depth as is needed a call does not depend on what answers below it. -/
theorem lookupFrom_enough (base base' : Follow) :
    ∀ (depth depth' : Nat) (candidates : List (List (List Char))) (name : String)
      (seen : List (String × String)) (hops : Nat) (scopes : Scopes),
      need (unread addon scopes) hops ≤ depth → need (unread addon scopes) hops ≤ depth' →
      lookupFrom python addon base depth candidates name seen hops scopes =
          lookupFrom python addon base' depth' candidates name seen hops scopes ∧
        unread addon (lookupFrom python addon base depth candidates name seen hops scopes).2 ≤
          unread addon scopes := by
  intro depth
  induction depth with
  | zero =>
      intro depth' candidates name seen hops scopes enough
      exact absurd enough (Nat.not_succ_le_zero _)
  | succ depth ih =>
      intro depth' candidates name seen hops scopes enough enough'
      cases depth' with
      | zero => exact absurd enough' (Nat.not_succ_le_zero _)
      | succ depth' =>
          rw [lookupFrom, lookupFrom, lookupStep, lookupStep]
          cases leads : candidates.findSome? addon.fileAt with
          | none => exact ⟨rfl, Nat.le_refl _⟩
          | some path =>
              dsimp only
              by_cases cycle : seen.contains (path, name) = true
              · rw [if_pos cycle, if_pos cycle]
                exact ⟨rfl, Nat.le_refl _⟩
              · rw [if_neg cycle, if_neg cycle]
                -- a scope under construction has one unread file less and starts at one hop
                have inner : scopes.get? path = none → AgreeOn
                    (fun later => unread addon later < unread addon scopes)
                    (lookupFrom python addon base depth) (lookupFrom python addon base' depth') := by
                  intro _ candidates name later less
                  have deep : need (unread addon later) 1 < need (unread addon scopes) hops := by
                    simp only [need, maxImportHops]
                    omega
                  obtain ⟨same, kept⟩ := ih depth' candidates name [] 1 later (by omega) (by omega)
                  exact ⟨same, Nat.lt_of_le_of_lt kept less⟩
                obtain ⟨same, kept⟩ := scopeOfFile_congr python
                  (candidates_python leads) inner
                rw [← same]
                revert kept
                cases scopeOfFile python addon (lookupFrom python addon base depth) path scopes with
                | mk scope later =>
                    intro kept
                    cases scope with
                    | none => exact ⟨rfl, kept⟩
                    | some entries =>
                        have further : hops < maxImportHops → ∀ candidates sourceName,
                            lookupFrom python addon base depth candidates sourceName
                                ((path, name) :: seen) (hops + 1) later =
                              lookupFrom python addon base' depth' candidates sourceName
                                ((path, name) :: seen) (hops + 1) later ∧
                            unread addon (lookupFrom python addon base depth candidates sourceName
                                ((path, name) :: seen) (hops + 1) later).2 ≤ unread addon scopes := by
                          intro more candidates sourceName
                          have kept : unread addon later ≤ unread addon scopes := kept
                          have deep : need (unread addon later) (hops + 1) <
                              need (unread addon scopes) hops := by
                            simp only [need, maxImportHops] at more ⊢
                            omega
                          obtain ⟨same, less⟩ := ih depth' candidates sourceName
                            ((path, name) :: seen) (hops + 1) later (by omega) (by omega)
                          exact ⟨same, less.trans kept⟩
                        exact lookupScope_congr
                          (fun later => unread addon later ≤ unread addon scopes) entries none
                          kept further name

theorem need_le_bound (scopes : Scopes) (hops : Nat) :
    need (unread addon scopes) hops ≤ depthBound addon := by
  have fewer : unread addon scopes ≤ addon.source.pythonFiles.length := List.length_filter_le _ _
  simp only [depthBound, need, maxImportHops]
  omega

/-- Calls never nest deeper than the bound. -/
theorem lookupFrom_resolver (python : Python) (addon : Addon) (base : Follow) (more : Nat) :
    lookupFrom python addon base (depthBound addon + more) = resolver python addon := by
  funext candidates name seen hops scopes
  have bound : need (unread addon scopes) hops ≤ depthBound addon := need_le_bound scopes hops
  rw [resolver, lookupIn_eq]
  exact (lookupFrom_enough base _ _ _ candidates name seen hops scopes (by omega) bound).1

theorem resolver_step (python : Python) (addon : Addon) :
    lookupStep python addon (resolver python addon) = resolver python addon := by
  rw [resolver, lookupIn_eq]
  have deeper := lookupFrom_resolver python addon (fun _ _ _ _ scopes => (none, scopes)) 1
  rw [lookupFrom, resolver, lookupIn_eq] at deeper
  exact deeper

end Congruence

section Given
variable (python : Python) (addon : Addon)

mutual

/-- An assignment that at most `left` imports lead to gives the name of the file this value. -/
inductive Gives : Nat → String → String → ConstValue → Prop where
  | assigned {left : Nat} {path name : String} {line : Nat} {expr : PyExpr} {value : ConstValue}
      (binds : ⟨name, line, .assigned expr⟩ ∈ staticsOf python addon path)
      (denotes : Denotes path expr value) : Gives left path name value
  | imported {left : Nat} {path name file sourceName : String} {line : Nat}
      {candidates : List (List (List Char))} {value : ConstValue}
      (binds : ⟨name, line, .imported candidates sourceName⟩ ∈ staticsOf python addon path)
      (leads : candidates.findSome? addon.fileAt = some file)
      (gives : Gives left file sourceName value) : Gives (left + 1) path name value

inductive Denotes : String → PyExpr → ConstValue → Prop where
  | text {path value : String} : Denotes path (.text value) (.text value)
  | name {path id : String} {value : ConstValue} (gives : Gives maxImportHops path id value) :
      Denotes path (.name id) value
  | tuple {path : String} {elts : List PyExpr} {items : List String}
      (denote : DenoteItems path elts items) : Denotes path (.sequence .tuple elts) (.tuple items)
  | list {path : String} {elts : List PyExpr} {items : List String}
      (denote : DenoteItems path elts items) : Denotes path (.sequence .list elts) (.tuple items)

inductive DenoteItems : String → List PyExpr → List String → Prop where
  | nil {path : String} : DenoteItems path [] []
  | cons {path item : String} {elt : PyExpr} {rest : List PyExpr} {items : List String}
      (denotes : Denotes path elt (.text item)) (denote : DenoteItems path rest items) :
      DenoteItems path (elt :: rest) (item :: items)

end

def EntrySound (path : String) (entry : Entry) : Prop :=
  match entry.binding with
  | .value none => True
  | .value (some value) => ∃ line expr,
      ⟨entry.name, line, .assigned expr⟩ ∈ staticsOf python addon path ∧
        Denotes python addon path expr value
  | .imported candidates sourceName =>
      ⟨entry.name, entry.line, .imported candidates sourceName⟩ ∈ staticsOf python addon path

def ScopesSound (scopes : Scopes) : Prop :=
  ∀ path entries, scopes.get? path = some (some entries) →
    ∀ entry ∈ entries, EntrySound python addon path entry

structure FollowSound (follow : Follow) : Prop where
  keeps : ∀ candidates name seen hops scopes, ScopesSound python addon scopes →
    ScopesSound python addon (follow candidates name seen hops scopes).2
  gives : ∀ candidates name seen hops scopes value, ScopesSound python addon scopes →
    hops ≤ maxImportHops → (follow candidates name seen hops scopes).1 = some value →
    ∃ file, candidates.findSome? addon.fileAt = some file ∧
      Gives python addon (maxImportHops - hops) file name value

variable {python addon} {keeps : Scopes → Prop} {lookup : Lookup} {follow : Follow}

mutual

theorem evaluate_denotes {path : String}
    (kept : ∀ id scopes, keeps scopes → keeps (lookup id scopes).2)
    (gives : ∀ id scopes value, keeps scopes → (lookup id scopes).1 = some value →
      Gives python addon maxImportHops path id value) :
    ∀ (expr : PyExpr) (scopes : Scopes) (value : ConstValue), keeps scopes →
      (evaluate lookup expr scopes).1 = some value → Denotes python addon path expr value
  | .text text, _, _, _, found => by
      cases found
      exact .text
  | .name id, scopes, value, holds, found => .name (gives id scopes value holds found)
  | .sequence .tuple elts, scopes, value, holds, found => by
      obtain ⟨items, itemsFound, rfl⟩ := Option.map_eq_some_iff.mp found
      exact .tuple (evaluateItems_denote kept gives elts scopes items holds itemsFound)
  | .sequence .list elts, scopes, value, holds, found => by
      obtain ⟨items, itemsFound, rfl⟩ := Option.map_eq_some_iff.mp found
      exact .list (evaluateItems_denote kept gives elts scopes items holds itemsFound)
  | .sequence .set _, _, _, _, found => by cases found
  | .constant, _, _, _, found => by cases found
  | .starred _, _, _, _, found => by cases found
  | .attribute _ _, _, _, _, found => by cases found
  | .dict _ _, _, _, _, found => by cases found
  | .call _ _, _, _, _, found => by cases found
  | .other _, _, _, _, found => by cases found

theorem evaluateItems_denote {path : String}
    (kept : ∀ id scopes, keeps scopes → keeps (lookup id scopes).2)
    (gives : ∀ id scopes value, keeps scopes → (lookup id scopes).1 = some value →
      Gives python addon maxImportHops path id value) :
    ∀ (elts : List PyExpr) (scopes : Scopes) (items : List String), keeps scopes →
      (evaluateItems lookup elts scopes).1 = some items → DenoteItems python addon path elts items
  | [], _, _, _, found => by
      cases found
      exact .nil
  | elt :: rest, scopes, items, holds, found => by
      have firstKeeps := evaluate_keeps kept elt scopes holds
      rw [evaluateItems] at found
      split at found
      next item later evaluated =>
        rw [evaluated] at firstKeeps
        obtain ⟨others, othersFound, rfl⟩ := Option.map_eq_some_iff.mp found
        exact .cons (evaluate_denotes kept gives elt scopes (.text item) holds
          (congrArg Prod.fst evaluated))
          (evaluateItems_denote kept gives rest later others firstKeeps othersFound)
      next => cases found

end

variable {entries : List Entry} {scopes : Scopes} {path : String} {body : List PyStmt}

theorem boundBefore_mem {before : Option Nat} {name : String} {entry : Entry}
    (found : boundBefore entries before name = some entry) : entry ∈ entries ∧ entry.name = name := by
  obtain ⟨listed, named⟩ := List.mem_filter.mp (List.mem_of_getLast? found)
  exact ⟨listed, eq_of_beq (Bool.and_eq_true_iff.mp named).1⟩

theorem lookupScope_keeps_sound (ok : FollowSound python addon follow) (entries : List Entry)
    (before : Option Nat) (seen : List (String × String)) (hops : Nat) (name : String)
    (holds : ScopesSound python addon scopes) :
    ScopesSound python addon (lookupScope follow entries before seen hops name scopes).2 := by
  rw [lookupScope]
  split
  · exact holds
  · split
    · exact holds
    · split
      · exact holds
      · exact ok.keeps _ _ _ _ _ holds

theorem lookupScope_gives (ok : FollowSound python addon follow) {path name : String}
    {before : Option Nat} {seen : List (String × String)} {hops : Nat}
    {value : ConstValue} (holds : ScopesSound python addon scopes)
    (sound : ∀ entry ∈ entries, EntrySound python addon path entry)
    (found : (lookupScope follow entries before seen hops name scopes).1 = some value) :
    Gives python addon (maxImportHops - hops) path name value := by
  rw [lookupScope] at found
  cases last : boundBefore entries before name with
  | none =>
      rw [last] at found
      cases found
  | some entry =>
      obtain ⟨listed, rfl⟩ := boundBefore_mem last
      have here := sound entry listed
      rw [last] at found
      dsimp only at found
      rw [EntrySound] at here
      cases binding : entry.binding with
      | value const =>
          rw [binding] at found here
          cases found
          obtain ⟨line, expr, binds, denotes⟩ := here
          exact .assigned binds denotes
      | imported candidates sourceName =>
          rw [binding] at found here
          dsimp only at found here
          by_cases far : maxImportHops ≤ hops
          · rw [if_pos far] at found
            cases found
          · rw [if_neg far] at found
            obtain ⟨file, leads, gives⟩ := ok.gives _ _ _ _ _ _ holds (by omega) found
            have oneLess : maxImportHops - hops = maxImportHops - (hops + 1) + 1 := by omega
            rw [oneLess]
            exact .imported here leads gives

theorem static_listed {stmt : PyStmt} {static : Static}
    (parsed : treeAt python addon path = some body) (inBody : stmt ∈ body)
    (made : static ∈ stmtStatic addon path stmt) : static ∈ staticsOf python addon path := by
  rw [staticsOf, parsed]
  exact List.mem_flatMap.mpr ⟨stmt, inBody, made⟩

theorem recordStmt_sound (ok : FollowSound python addon follow)
    {stmt : PyStmt}
    (parsed : treeAt python addon path = some body) (inBody : stmt ∈ body)
    (holds : ScopesSound python addon scopes)
    (sound : ∀ entry ∈ entries, EntrySound python addon path entry) :
    ScopesSound python addon (recordStmt follow addon path entries scopes stmt).2 ∧
      ∀ entry ∈ (recordStmt follow addon path entries scopes stmt).1,
        EntrySound python addon path entry := by
  have listed : ∀ static ∈ stmtStatic addon path stmt, static ∈ staticsOf python addon path :=
    fun static => static_listed parsed inBody
  rw [stmtStatic] at listed
  rw [recordStmt]
  cases plain : plainAssign? stmt with
  | some pair =>
      obtain ⟨names, expr⟩ := pair
      rw [plain] at listed
      have kept : ∀ id scopes, ScopesSound python addon scopes → ScopesSound python addon
          (lookupScope follow entries (some (stmtLine stmt)) [] 0 id scopes).2 :=
        fun id scopes known => lookupScope_keeps_sound ok entries _ [] 0 id known
      refine ⟨evaluate_keeps kept expr scopes holds, fun entry isEntry => ?_⟩
      obtain earlier | new := List.mem_append.mp isEntry
      · exact sound entry earlier
      · obtain ⟨name, named, rfl⟩ := List.mem_map.mp new
        rw [EntrySound]
        cases value : (evaluate (lookupScope follow entries (some (stmtLine stmt)) [] 0) expr
            scopes).1 with
        | none => trivial
        | some const =>
            refine ⟨stmtLine stmt, expr, listed _ (List.mem_map_of_mem named), ?_⟩
            exact evaluate_denotes kept
              (fun id scopes value known found => lookupScope_gives ok known sound found)
              expr scopes const holds value
  | none =>
      rw [plain] at listed
      cases imports : addonImport? addon path stmt with
      | some pair =>
          rw [imports] at listed
          refine ⟨holds, fun entry isEntry => ?_⟩
          obtain earlier | new := List.mem_append.mp isEntry
          · exact sound entry earlier
          · obtain ⟨imported, named, rfl⟩ := List.mem_map.mp new
            exact listed _ (List.mem_map_of_mem named)
      | none =>
          refine ⟨holds, fun entry isEntry => ?_⟩
          obtain earlier | new := List.mem_append.mp isEntry
          · exact sound entry earlier
          · obtain ⟨name, named, rfl⟩ := List.mem_map.mp new
            trivial

theorem recordStmts_sound (ok : FollowSound python addon follow)
    (parsed : treeAt python addon path = some body) (stmts : List PyStmt)
    (inBody : stmts ⊆ body)
    (holds : ScopesSound python addon scopes)
    (sound : ∀ entry ∈ entries, EntrySound python addon path entry) :
    let built := stmts.foldl
      (fun built stmt => recordStmt follow addon path built.1 built.2 stmt) (entries, scopes)
    ScopesSound python addon built.2 ∧ ∀ entry ∈ built.1, EntrySound python addon path entry := by
  induction stmts generalizing entries scopes with
  | nil => exact ⟨holds, sound⟩
  | cons stmt rest ih =>
      have one := recordStmt_sound ok parsed (inBody List.mem_cons_self) holds sound
      exact ih (fun other later => inBody (List.mem_cons_of_mem _ later)) one.1 one.2

theorem buildScope_sound (ok : FollowSound python addon follow)
    (parsed : treeAt python addon path = some body)
    (holds : ScopesSound python addon scopes) :
    ScopesSound python addon (buildScope follow addon path body scopes).2 ∧
      ∀ entry ∈ (buildScope follow addon path body scopes).1, EntrySound python addon path entry :=
  recordStmts_sound ok parsed body (List.Subset.refl body) holds fun _ none => by cases none

theorem scopesSound_started (path : String)
    (holds : ScopesSound python addon scopes) :
    ScopesSound python addon (scopes.put path none) := by
  intro other entries found
  rw [get?_put] at found
  split at found
  · cases found
  · exact holds other entries found

theorem scopesSound_read
    (holds : ScopesSound python addon scopes)
    (sound : ∀ entry ∈ entries, EntrySound python addon path entry) :
    ScopesSound python addon (scopes.put path (some entries)) := by
  intro other found isFound
  rw [get?_put] at isFound
  split at isFound
  · rename_i same
    cases isFound
    rw [← same]
    exact sound
  · exact holds other found isFound

theorem scopeOfFile_sound (ok : FollowSound python addon follow) (path : String)
    (holds : ScopesSound python addon scopes) :
    ScopesSound python addon (scopeOfFile python addon follow path scopes).2 ∧
      ∀ entries, (scopeOfFile python addon follow path scopes).1 = some entries →
        ∀ entry ∈ entries, EntrySound python addon path entry := by
  rw [scopeOfFile]
  cases found : scopes.get? path with
  | some known =>
      refine ⟨holds, fun entries same => ?_⟩
      cases same
      exact holds path entries found
  | none =>
      have started := scopesSound_started path holds
      cases parsed : treeAt python addon path with
      | none =>
          refine ⟨started, fun entries given => ?_⟩
          cases given
      | some body =>
          have built := buildScope_sound ok parsed started
          refine ⟨scopesSound_read built.1 built.2, fun entries same => ?_⟩
          cases same
          exact built.2

theorem lookupStep_sound (ok : FollowSound python addon follow) :
    FollowSound python addon (lookupStep python addon follow) := by
  constructor
  · intro candidates name seen hops scopes holds
    rw [lookupStep]
    cases candidates.findSome? addon.fileAt with
    | none => exact holds
    | some path =>
        have read := scopeOfFile_sound ok path holds
        dsimp only
        split
        · exact holds
        · split
          next later same =>
            rw [same] at read
            exact read.1
          next entries later same =>
            rw [same] at read
            exact lookupScope_keeps_sound ok entries none _ hops name read.1
  · intro candidates name seen hops scopes value holds near found
    rw [lookupStep] at found
    cases leads : candidates.findSome? addon.fileAt with
    | none =>
        rw [leads] at found
        cases found
    | some path =>
        rw [leads] at found
        have read := scopeOfFile_sound ok path holds
        dsimp only at found
        split at found
        next => cases found
        next =>
          split at found
          next => cases found
          next entries later same =>
            rw [same] at read
            exact ⟨path, rfl, lookupScope_gives ok read.1 (read.2 entries rfl) found⟩

theorem resolver_sound : FollowSound python addon (resolver python addon) := by
  rw [resolver, lookupIn_eq]
  generalize depthBound addon = depth
  induction depth with
  | zero =>
      constructor
      · intro candidates name seen hops scopes holds
        exact holds
      · intro candidates name seen hops scopes value _ _ found
        cases found
  | succ depth ih => exact lookupStep_sound ih

end Given

/-- What a caller does with a resolver: it opens the scope of a file, and asks a scope it holds
for a name or for the value of an expression before a line, or the resolver for an import. -/
inductive Request where
  | scopeFor (path : String)
  | lookup (held : Nat) (before : Option Nat) (name : String)
  | evaluate (held : Nat) (before : Option Nat) (expr : PyExpr)
  | lookupIn (candidates : List (List (List Char))) (name : String)

/-- What was asked, with the file of the scope, and the value returned. -/
inductive Answer where
  | name (path name : String) (value : Option ConstValue)
  | expr (path : String) (expr : PyExpr) (value : Option ConstValue)
  | imported (candidates : List (List (List Char))) (name : String) (value : Option ConstValue)

/-- The resolver's scopes and the ones that callers hold, with their files. -/
structure Session where
  scopes : Scopes
  held : List (String × List Entry)
  answers : List Answer

section Sessions
variable (python : Python) (addon : Addon) (follow : Follow)

def serve (session : Session) : Request → Session
  | .scopeFor path =>
      match treeAt python addon path with
      | none => session
      | some body =>
          let built := buildScope follow addon path body (session.scopes.put path none)
          { session with
            scopes := built.2.put path (some built.1)
            held := session.held ++ [(path, built.1)] }
  | .lookup slot before name =>
      match session.held[slot]? with
      | none => session
      | some (path, entries) =>
          let looked := lookupScope follow entries before [] 0 name session.scopes
          { session with
            scopes := looked.2
            answers := session.answers ++ [.name path name looked.1] }
  | .evaluate slot before expr =>
      match session.held[slot]? with
      | none => session
      | some (path, entries) =>
          let evaluated := evaluate (lookupScope follow entries before [] 0) expr session.scopes
          { session with
            scopes := evaluated.2
            answers := session.answers ++ [.expr path expr evaluated.1] }
  | .lookupIn candidates name =>
      let looked := follow candidates name [] 0 session.scopes
      { session with
        scopes := looked.2
        answers := session.answers ++ [.imported candidates name looked.1] }

def runSession (requests : List Request) : Session :=
  requests.foldl (serve python addon follow) ⟨[], [], []⟩

/-- A returned value is given by an assignment that the imports lead to. -/
def Answer.Justified : Answer → Prop
  | .name path id value => ∀ const, value = some const →
      Gives python addon maxImportHops path id const
  | .expr path given value => ∀ const, value = some const → Denotes python addon path given const
  | .imported candidates id value => ∀ const, value = some const →
      ∃ file, candidates.findSome? addon.fileAt = some file ∧
        Gives python addon maxImportHops file id const

structure SessionSound (session : Session) : Prop where
  scopes : ScopesSound python addon session.scopes
  held : ∀ pair ∈ session.held, ∀ entry ∈ pair.2, EntrySound python addon pair.1 entry
  answers : ∀ answer ∈ session.answers, answer.Justified python addon

variable {python addon follow}

theorem serve_sound (ok : FollowSound python addon follow) {session : Session}
    (sound : SessionSound python addon session) (request : Request) :
    SessionSound python addon (serve python addon follow session request) := by
  have answered : ∀ (scopes : Scopes) (answer : Answer), ScopesSound python addon scopes →
      answer.Justified python addon → SessionSound python addon
        { session with scopes := scopes, answers := session.answers ++ [answer] } := by
    intro scopes answer holds justified
    refine ⟨holds, sound.held, fun other listed => ?_⟩
    obtain earlier | new := List.mem_append.mp listed
    · exact sound.answers other earlier
    · rw [List.mem_singleton.mp new]
      exact justified
  cases request with
  | scopeFor path =>
      rw [serve]
      cases parsed : treeAt python addon path with
      | none => exact sound
      | some body =>
          have built := buildScope_sound ok parsed (scopesSound_started path sound.scopes)
          refine ⟨scopesSound_read built.1 built.2, fun pair listed => ?_, sound.answers⟩
          obtain earlier | new := List.mem_append.mp listed
          · exact sound.held pair earlier
          · rw [List.mem_singleton.mp new]
            exact built.2
  | lookup slot before name =>
      rw [serve]
      cases found : session.held[slot]? with
      | none => exact sound
      | some pair =>
          have entries := sound.held pair (List.mem_of_getElem? found)
          refine answered _ _ (lookupScope_keeps_sound ok pair.2 before [] 0 name sound.scopes) ?_
          intro const value
          exact lookupScope_gives ok sound.scopes entries value
  | evaluate slot before expr =>
      rw [serve]
      cases found : session.held[slot]? with
      | none => exact sound
      | some pair =>
          have entries := sound.held pair (List.mem_of_getElem? found)
          have kept : ∀ id scopes, ScopesSound python addon scopes → ScopesSound python addon
              (lookupScope follow pair.2 before [] 0 id scopes).2 :=
            fun id scopes known => lookupScope_keeps_sound ok pair.2 before [] 0 id known
          refine answered _ _ (evaluate_keeps kept expr session.scopes sound.scopes) ?_
          intro const value
          exact evaluate_denotes kept
            (fun id scopes value known looked => lookupScope_gives ok known entries looked)
            expr session.scopes const sound.scopes value
  | lookupIn candidates name =>
      refine answered _ _ (ok.keeps candidates name [] 0 session.scopes sound.scopes) ?_
      intro const value
      exact ok.gives candidates name [] 0 session.scopes const sound.scopes (Nat.zero_le _) value

theorem session_sound (ok : FollowSound python addon follow) (requests : List Request) :
    SessionSound python addon (runSession python addon follow requests) := by
  have start : SessionSound python addon ⟨[], [], []⟩ :=
    ⟨fun _ _ found => (by cases found), fun _ none => (by cases none), fun _ none => (by cases none)⟩
  rw [runSession]
  generalize (⟨[], [], []⟩ : Session) = session at start ⊢
  induction requests generalizing session with
  | nil => exact start
  | cons request rest ih => exact ih _ (serve_sound ok start request)

end Sessions

/-- Whatever the files and their imports are, calls never nest deeper than the bound, so that the
resolver is a total function that answers as its code does; and in every session a value that is
returned is one that an assignment gives which the imports lead to within their bound. -/
theorem resolver_terminates_sound (python : Python) (addon : Addon) :
    (∀ (base : Follow) (more : Nat),
        lookupFrom python addon base (depthBound addon + more) = resolver python addon) ∧
      lookupStep python addon (resolver python addon) = resolver python addon ∧
      ∀ requests, ∀ answer ∈ (runSession python addon (resolver python addon) requests).answers,
        answer.Justified python addon :=
  ⟨lookupFrom_resolver python addon, resolver_step python addon,
    fun requests => (session_sound resolver_sound requests).answers⟩

end OdooSemantic.Prune.ConstantRuns
