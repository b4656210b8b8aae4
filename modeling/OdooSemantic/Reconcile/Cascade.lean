import OdooSemantic.Reconcile.Kept

/-!
# What the graph and embedding calls do to one name

The nodes of a name only change through calls on that name; a cascade that
returns has deleted them all or skipped the name as recent, and one that raises
has deleted at most what it had reached.
-/

set_option autoImplicit false

namespace OdooSemantic.Reconcile.Cascade

open Lib Lib.Action Lib.Py
open Ledger.Rows Ledger.Store
open Reconcile.Stores Reconcile.Pending Reconcile.Kept

section Name
variable (odooVersion name : String)

def nodesOf (world : World) : List ModuleNode :=
  world.modules.filter (ModuleNode.isAt odooVersion name)

def recent (runStartedAt : Timestamp) (world : World) : Bool :=
  world.modules.any fun node =>
    node.isAt odooVersion name && !writtenBefore runStartedAt node.lastSeenAt

/-- The name's nodes satisfy `nodes`, and no embedding of the name and a profile of
`gone` is left. -/
structure Trail (nodes : List ModuleNode → Prop) (gone : List String) (world : World) :
    Prop where
  nodes : nodes (nodesOf odooVersion name world)
  embeddings : ∀ row ∈ world.embeddings, row.odooVersion = odooVersion → row.module = name →
    row.profileName ∈ gone → ownedProfile row.profileName = false

def Shrinkable (nodes : List ModuleNode → Prop) : Prop :=
  ∀ all test, nodes all → nodes (all.filter test)

variable {odooVersion name}

theorem recent_eq (runStartedAt : Timestamp) (world : World) :
    recent odooVersion name runStartedAt world =
      (nodesOf odooVersion name world).any fun node =>
        !writtenBefore runStartedAt node.lastSeenAt := by
  simp [recent, nodesOf, List.any_filter]

variable {nodes : List ModuleNode → Prop} {gone : List String}

theorem trail_ledger (world : World)
    (ledger : LedgerTable) (trail : Trail odooVersion name nodes gone world) :
    Trail odooVersion name nodes gone { world with ledger } :=
  ⟨trail.nodes, trail.embeddings⟩

theorem nodesOf_deleteModules (stale applied : ModuleNode → Bool) (world : World) :
    nodesOf odooVersion name (deleteModules stale applied world) =
      (nodesOf odooVersion name world).filter fun node => !(stale node && applied node) := by
  simp [nodesOf, deleteModules, List.filter_filter, Bool.and_comm]

theorem nodesOf_reown (version other : String) (apart : version = odooVersion → other ≠ name)
    (primary : ModuleOwner) (owners : List ModuleOwner) (world : World) :
    nodesOf odooVersion name (reown version other primary owners world) =
      nodesOf odooVersion name world := by
  unfold nodesOf reown
  induction world.modules with
  | nil => rfl
  | cons node rest ih =>
      rw [List.map_cons]
      by_cases target : node.isAt version other = true
      · have elsewhere : node.isAt odooVersion name = false := by
          simp only [ModuleNode.isAt, Bool.and_eq_true, beq_iff_eq] at target
          simp only [ModuleNode.isAt, target.1, target.2, Bool.and_eq_false_iff,
            beq_eq_false_iff_ne]
          exact Classical.or_iff_not_imp_left.mpr fun same => apart (by simpa using same)
        have moved : ModuleNode.isAt odooVersion name
            (if node.isAt version other then
              { node with
                profile := sortedSet (owners.map (·.profileName))
                repos := sortedSet (owners.map (·.repoBasename))
                repo := primary.repoBasename
                path := primary.path
                repoId := primary.repoId.or node.repoId
                repoUrl := some primary.repoUrl }
            else node) = false := by
          rw [if_pos target]
          exact elsewhere
        rw [List.filter_cons_of_neg (by rw [moved]; exact Bool.false_ne_true),
          List.filter_cons_of_neg (by rw [elsewhere]; exact Bool.false_ne_true)]
        exact ih
      · rw [if_neg target]
        by_cases own : node.isAt odooVersion name = true
        · rw [List.filter_cons_of_pos own, List.filter_cons_of_pos own]
          exact congrArg (node :: ·) ih
        · rw [List.filter_cons_of_neg own, List.filter_cons_of_neg own]
          exact ih

theorem deleteEmbeddings_trail
    (version module : String) (profiles : List String) (point : Option EmbeddingPoint) :
    Keeps (Trail odooVersion name nodes gone)
      (deleteEmbeddings version module profiles point) := by
  apply keeps_deleteEmbeddings
  intro world trail
  exact ⟨trail.nodes, fun row member => trail.embeddings row (List.mem_of_mem_filter member)⟩

theorem framed_other {input : PassInput}
    (other : String) (apart : input.odooVersion = odooVersion → other ≠ name) :
    Framed input (Trail odooVersion name nodes gone) other where
  ledger := trail_ledger
  drop := by
    intro owners point
    unfold dropModuleOwner
    simp only
    split
    · exact keeps_raise _
    · split
      · exact keeps_done _
      · split
        · exact keeps_raise _
        · apply keeps_andThen
          · intro world trail
            refine ⟨?_, trail.embeddings⟩
            rw [show nodesOf odooVersion name (update (reown input.odooVersion other _ _)
              world : Except String Unit × World).2 = nodesOf odooVersion name world from
                nodesOf_reown input.odooVersion other apart _ _ world]
            exact trail.nodes
          · intro _
            apply keeps_andThen
            · apply keeps_forEach
              intro label _
              exact batched_keeps _ _ fun _ _ trail => ⟨trail.nodes, trail.embeddings⟩
            · intro _
              apply keeps_forEach
              intro label _
              exact batched_keeps _ _ fun _ _ trail => ⟨trail.nodes, trail.embeddings⟩
  embeddings := deleteEmbeddings_trail _ other

end Name

section Retire
variable (odooVersion : String) (names targets : List String) (runStartedAt : Timestamp)
  (point : Option RetirePoint)

def leftModules (applied : ModuleNode → Bool) (modules : List ModuleNode) : List ModuleNode :=
  modules.filter fun node =>
    !(staleModule odooVersion targets runStartedAt node && applied node)

def CascadeOutcome (modules : List ModuleNode) (result : Except String Unit) (world : World) :
    Prop :=
  (∃ error, result = .error error ∧ world.modules = modules) ∨
    (∃ error applied, result = .error error ∧ point.bind RetirePoint.atModules = some applied ∧
      world.modules = leftModules odooVersion targets runStartedAt applied modules) ∨
    (result = .ok () ∧ point.bind RetirePoint.atModules = none ∧
      world.modules = leftModules odooVersion targets runStartedAt (fun _ => true) modules)

theorem retireCascade_outcome (modules : List ModuleNode) :
    Meets (fun world => world.modules = modules)
      (retireCascade odooVersion targets runStartedAt point)
      (CascadeOutcome odooVersion targets runStartedAt point modules) := by
  unfold retireCascade
  apply @meets_andThen _ _ _ _ _ (fun _ world => world.modules = modules)
  · apply keeps_forEach
    intro label _
    exact batched_keeps _ _ fun _ _ holds => holds
  · intro _ world holds
    unfold batched
    cases failing : point.bind RetirePoint.atModules with
    | none =>
        refine Or.inr (Or.inr ⟨rfl, failing, ?_⟩)
        exact congrArg (leftModules odooVersion targets runStartedAt fun _ => true) holds
    | some applied =>
        refine Or.inr (Or.inl ⟨_, applied, rfl, failing, ?_⟩)
        exact congrArg (leftModules odooVersion targets runStartedAt applied) holds
  · intro error world holds
    exact Or.inl ⟨error, rfl, holds⟩

theorem retireCascade_returns (clean : point = none) :
    Returns (retireCascade odooVersion targets runStartedAt point) := by
  subst clean
  apply returns_andThen
  · exact returns_forEach _ _ fun label _ state => ⟨(), rfl⟩
  · exact fun _ state => ⟨(), rfl⟩

theorem retireCascade_raises (failing : RetirePoint) (inside : failing.atGuard = false)
    (early : failing.atLateGuard = false) :
    Raises (retireCascade odooVersion targets runStartedAt (some failing)) := by
  cases failing with
  | guard => cases inside
  | lateGuard => cases early
  | children label applied =>
      apply raises_andThen_left
      refine raises_forEach _ _ label ?_ ?_
      · cases label <;> decide
      · intro state
        refine ⟨"transaction failed", ?_⟩
        simp [batched, RetirePoint.atChildren, andThen, update, raise]
  | modules applied =>
      apply raises_andThen_right
      intro _ state
      exact ⟨_, rfl⟩

theorem mem_targetNames (world : World) (name : String) :
    name ∈ targetNames world odooVersion runStartedAt (sortedSet (names.filter retirableName)) ↔
      name ∈ names ∧ retirableName name = true ∧
        recent odooVersion name runStartedAt world = false := by
  have isRecent : (recentNames world odooVersion runStartedAt
      (sortedSet (names.filter retirableName))).contains name = true ↔
      (name ∈ names ∧ retirableName name = true) ∧
        recent odooVersion name runStartedAt world = true := by
    simp [recentNames, recent, List.mem_filter]
  unfold targetNames
  simp only [List.mem_filter, mem_sortedSet, Bool.not_eq_true', ← Bool.not_eq_true, isRecent]
  constructor
  · intro target
    exact ⟨target.1.1, target.1.2, fun late => target.2 ⟨target.1, late⟩⟩
  · intro target
    exact ⟨⟨target.1, target.2.1⟩, fun late => target.2.2 late.2⟩

def AppliedAt (applied : ModuleNode → Bool) : Prop :=
  (∀ node, applied node = false) ∨ point.bind RetirePoint.atModules = some applied ∨
    point.any RetirePoint.atLateGuard = true

def TargetsOutcome (recent : List String) (before : World)
    (result : Except String (List String)) (world : World) : Prop :=
  (targets = [] ∧ result = .ok recent ∧ world.modules = before.modules) ∨
    (point.isSome = true ∧ ∃ error applied, result = .error error ∧ AppliedAt point applied ∧
      world.modules = leftModules odooVersion targets runStartedAt applied before.modules) ∨
    (targets ≠ [] ∧ point = none ∧ result = .ok (sortedSet (recent ++
        targets.filter fun name => world.modules.any (ModuleNode.isAt odooVersion name))) ∧
      world.modules =
        leftModules odooVersion targets runStartedAt (fun _ => true) before.modules)

theorem leftModules_none (modules : List ModuleNode) :
    leftModules odooVersion targets runStartedAt (fun _ => false) modules = modules := by
  simp [leftModules]

theorem retireTargets_outcome (noGuard : point.any RetirePoint.atGuard = false)
    (recent : List String) (before : World) :
    TargetsOutcome odooVersion targets runStartedAt point recent before
      (retireTargets odooVersion targets recent runStartedAt point before).1
      (retireTargets odooVersion targets recent runStartedAt point before).2 := by
  unfold retireTargets
  by_cases nothing : targets.isEmpty = true
  · rw [if_pos nothing]
    exact Or.inl ⟨List.isEmpty_iff.mp nothing, rfl, rfl⟩
  · rw [if_neg nothing]
    have some' : targets ≠ [] := fun empty => nothing (List.isEmpty_iff.mpr empty)
    have outcome := retireCascade_outcome odooVersion targets runStartedAt point before.modules
      before rfl
    unfold andThen
    cases ran : retireCascade odooVersion targets runStartedAt point before with
    | mk result after =>
        rw [ran] at outcome
        have raisedPoint : ∀ error, result = .error error → point.isSome = true := by
          intro error isError
          cases point with
          | some failing => rfl
          | none =>
              obtain ⟨out, isOk⟩ := retireCascade_returns odooVersion targets runStartedAt none
                rfl before
              rw [ran] at isOk
              rw [isError] at isOk
              cases isOk
        rcases outcome with ⟨error, isError, same⟩ | ⟨error, applied, isError, at', left⟩ |
          ⟨isOk, unreached, left⟩
        · simp only at isError
          subst isError
          refine Or.inr (Or.inl ⟨raisedPoint error rfl, error, fun _ => false, rfl,
            Or.inl fun _ => rfl, ?_⟩)
          rw [leftModules_none]
          exact same
        · simp only at isError
          subst isError
          exact Or.inr (Or.inl ⟨raisedPoint error rfl, error, applied, rfl,
            Or.inr (Or.inl at'), left⟩)
        · simp only at isOk
          subst isOk
          simp only
          by_cases late : point.any RetirePoint.atLateGuard = true
          · rw [if_pos late]
            refine Or.inr (Or.inl ⟨?_, _, fun _ => true, rfl, Or.inr (Or.inr late), left⟩)
            cases point with
            | none => cases late
            | some failing => rfl
          · rw [if_neg late]
            refine Or.inr (Or.inr ⟨some', ?_, rfl, left⟩)
            cases point with
            | none => rfl
            | some failing =>
                obtain ⟨error, isError⟩ := retireCascade_raises odooVersion targets runStartedAt
                  failing noGuard (by simpa using late) before
                rw [ran] at isError
                cases isError

/-- The targets and the recent names of a call. -/
def Retires (before : World) : Except String (List String) → World → Prop :=
  TargetsOutcome odooVersion
    (targetNames before odooVersion runStartedAt (sortedSet (names.filter retirableName)))
    runStartedAt point
    (recentNames before odooVersion runStartedAt (sortedSet (names.filter retirableName))) before

theorem retireModules_outcome (before : World) :
    Retires odooVersion names runStartedAt point before
      (retireModules odooVersion names runStartedAt point before).1
      (retireModules odooVersion names runStartedAt point before).2 := by
  unfold retireModules
  by_cases nothing : (sortedSet (names.filter retirableName)).isEmpty = true
  · rw [if_pos nothing]
    have empty := List.isEmpty_iff.mp nothing
    left
    simp [targetNames, recentNames, empty, done]
  · rw [if_neg nothing]
    by_cases guarded : point.any RetirePoint.atGuard = true
    · rw [if_pos guarded]
      refine Or.inr (Or.inl ⟨?_, _, fun _ => false, rfl, Or.inl fun _ => rfl, ?_⟩)
      · cases point with
        | none => cases guarded
        | some failing => rfl
      · rw [leftModules_none]
        rfl
    · rw [if_neg guarded]
      exact retireTargets_outcome odooVersion _ runStartedAt point
        (by simpa using guarded) _ before

end Retire

section OneName
variable {odooVersion name : String} {names : List String} {runStartedAt : Timestamp}
  {point : Option RetirePoint} {before world : World} {result : Except String (List String)}
  {skipped : List String}

variable {version : String}

theorem nodesOf_left (targets : List String) (applied : ModuleNode → Bool)
    (left : world.modules = leftModules version targets runStartedAt applied before.modules) :
    nodesOf odooVersion name world = (nodesOf odooVersion name before).filter fun node =>
      !(staleModule version targets runStartedAt node && applied node) := by
  simp [nodesOf, left, leftModules, List.filter_filter, Bool.and_comm]

theorem nodesOf_left_other (targets : List String)
    (applied : ModuleNode → Bool)
    (left : world.modules = leftModules version targets runStartedAt applied before.modules)
    (apart : version = odooVersion → name ∉ targets) :
    nodesOf odooVersion name world = nodesOf odooVersion name before := by
  rw [nodesOf_left targets applied left]
  apply List.filter_eq_self.mpr
  intro node member
  have at' := (List.mem_filter.mp member).2
  simp only [ModuleNode.isAt, Bool.and_eq_true, beq_iff_eq] at at'
  by_cases same : version = odooVersion
  · simp [staleModule, at'.2, apart same]
  · simp [staleModule, at'.1, Ne.symm same]

theorem nodesOf_left_target (targets : List String)
    (left : world.modules =
      leftModules odooVersion targets runStartedAt (fun _ => true) before.modules)
    (target : name ∈ targets) (stale : recent odooVersion name runStartedAt before = false) :
    nodesOf odooVersion name world = [] := by
  rw [nodesOf_left targets _ left]
  apply List.filter_eq_nil_iff.mpr
  intro node member
  rw [recent_eq, List.any_eq_false] at stale
  have old := stale node member
  have at' := (List.mem_filter.mp member).2
  simp only [ModuleNode.isAt, Bool.and_eq_true, beq_iff_eq] at at'
  simp only [Bool.not_eq_true', Bool.not_eq_false] at old
  simp [staleModule, at', target, old]

theorem Retires.untargeted
    (retires : Retires version names runStartedAt point before result world)
    (apart : version = odooVersion → ¬ (name ∈ names ∧ retirableName name = true ∧
      recent version name runStartedAt before = false)) :
    nodesOf odooVersion name world = nodesOf odooVersion name before := by
  rw [← mem_targetNames] at apart
  rcases retires with ⟨-, -, same⟩ | ⟨-, _, applied, -, -, left⟩ | ⟨-, -, -, left⟩
  · simp [nodesOf, same]
  · exact nodesOf_left_other _ applied left apart
  · exact nodesOf_left_other _ _ left apart

theorem Retires.shrinks
    (retires : Retires odooVersion names runStartedAt point before result world)
    (name : String) :
    ∃ test, nodesOf odooVersion name world = (nodesOf odooVersion name before).filter test := by
  rcases retires with ⟨-, -, same⟩ | ⟨-, _, applied, -, -, left⟩ | ⟨-, -, -, left⟩
  · exact ⟨fun _ => true, by simp [nodesOf, same]⟩
  · exact ⟨_, nodesOf_left _ applied left⟩
  · exact ⟨_, nodesOf_left _ _ left⟩

/-- A call that returns deleted its targets and met no fault. -/
theorem Retires.deleted
    (retires : Retires odooVersion names runStartedAt point before (.ok skipped) world)
    (member : name ∈ names) (retirable : retirableName name = true)
    (stale : recent odooVersion name runStartedAt before = false) :
    point = none ∧ nodesOf odooVersion name world = [] := by
  have target := (mem_targetNames odooVersion names runStartedAt before name).mpr
    ⟨member, retirable, stale⟩
  rcases retires with ⟨nothing, -, -⟩ | ⟨-, _, _, isError, -, -⟩ | ⟨-, clean, -, left⟩
  · rw [nothing] at target
    cases target
  · cases isError
  · exact ⟨clean, nodesOf_left_target _ left target stale⟩

theorem Retires.mem_skipped
    (retires : Retires odooVersion names runStartedAt point before (.ok skipped) world)
    (name : String) :
    name ∈ skipped ↔ (name ∈ names ∧ retirableName name = true) ∧
      recent odooVersion name runStartedAt before = true := by
  have recents : name ∈ recentNames before odooVersion runStartedAt
      (sortedSet (names.filter retirableName)) ↔ (name ∈ names ∧ retirableName name = true) ∧
        recent odooVersion name runStartedAt before = true := by
    simp [recentNames, recent, List.mem_filter]
  rcases retires with ⟨-, isOk, -⟩ | ⟨-, _, _, isError, -, -⟩ | ⟨-, -, isOk, left⟩
  · cases isOk
    exact recents
  · cases isError
  · cases isOk
    rw [mem_sortedSet, List.mem_append, recents]
    constructor
    · intro either
      rcases either with known | late
      · exact known
      · obtain ⟨target, found⟩ := List.mem_filter.mp late
        have stale := (mem_targetNames odooVersion names runStartedAt before name).mp target
        have none := nodesOf_left_target _ left target stale.2.2
        obtain ⟨node, nodeIn, at'⟩ := List.any_eq_true.mp found
        have inNone : node ∈ nodesOf odooVersion name world :=
          List.mem_filter.mpr ⟨nodeIn, at'⟩
        rw [none] at inNone
        cases inNone
    · exact Or.inl

def spares (nodes : List ModuleNode) : RetirePoint → Bool
  | .guard => true
  | .children _ _ => true
  | .modules applied => nodes.all fun node => !applied node
  | .lateGuard => false

theorem Retires.spared {failing : RetirePoint} {error : String}
    (retires : Retires odooVersion names runStartedAt (some failing) before (.error error) world)
    (spared : spares (nodesOf odooVersion name before) failing = true) :
    nodesOf odooVersion name world = nodesOf odooVersion name before := by
  rcases retires with ⟨-, isOk, -⟩ | ⟨-, _, applied, -, at', left⟩ | ⟨-, isOk, -, -⟩
  · cases isOk
  · rw [nodesOf_left _ applied left]
    apply List.filter_eq_self.mpr
    intro node member
    have none : applied node = false := by
      rcases at' with never | modules | late
      · exact never node
      · cases failing with
        | modules known =>
            have same : known = applied := by simpa [RetirePoint.atModules] using modules
            have all := List.all_eq_true.mp spared node member
            simpa [same] using all
        | guard | children label known | lateGuard => cases modules
      · cases failing with
        | lateGuard => cases spared
        | guard | children label known | modules known => cases late
    simp [none]
  · cases isOk

end OneName

section Retried
variable {odooVersion name : String} {names : List String} {runStartedAt : Timestamp}

variable {nodes : List ModuleNode → Prop}

theorem retireModules_trail {gone : List String}
    (shrinkable : Shrinkable nodes) (point : Option RetirePoint) :
    Keeps (Trail odooVersion name nodes gone)
      (retireModules odooVersion names runStartedAt point) := by
  apply retireModules_keeps
  · exact fun _ _ _ trail => ⟨trail.nodes, trail.embeddings⟩
  · intro stale applied world trail
    refine ⟨?_, trail.embeddings⟩
    rw [nodesOf_deleteModules]
    exact shrinkable _ _ trail.nodes

theorem retireModules_embeddings (rows : List EmbeddingRow) (point : Option RetirePoint) :
    Keeps (fun world => world.embeddings = rows)
      (retireModules odooVersion names runStartedAt point) :=
  retireModules_keeps (fun _ _ _ holds => holds) (fun _ _ _ holds => holds) _ _ _ _

theorem retireModules_trail_other {version : String}
    {gone : List String} (apart : version = odooVersion → name ∉ names)
    (point : Option RetirePoint) :
    Keeps (Trail odooVersion name nodes gone)
      (retireModules version names runStartedAt point) := by
  intro world trail
  have outcome := retireModules_outcome version names runStartedAt point world
  have embeddings : (retireModules version names runStartedAt point world).2.embeddings =
      world.embeddings := retireModules_embeddings world.embeddings point world rfl
  refine ⟨?_, ?_⟩
  · rw [outcome.untargeted (fun same target => apart same target.1)]
    exact trail.nodes
  · rw [embeddings]
    exact trail.embeddings

variable (raises : List (Raised RetirePoint String)) (left : Nat)

theorem retried_graph_embeddings (world : World) :
    (retrying (retireModules odooVersion names runStartedAt) left raises world).2.embeddings =
      world.embeddings :=
  keeps_retrying _ (retireModules_embeddings world.embeddings) raises left world rfl

theorem retried_stale (name : String) :
    Meets (fun world => recent odooVersion name runStartedAt world = false)
      (retrying (retireModules odooVersion names runStartedAt) left raises)
      (fun result world => recent odooVersion name runStartedAt world = false ∧
        ∀ skipped, result = .ok skipped → name ∉ skipped ∧
          (name ∈ names → retirableName name = true → nodesOf odooVersion name world = [])) := by
  have each : ∀ point world, recent odooVersion name runStartedAt world = false →
      recent odooVersion name runStartedAt
          (retireModules odooVersion names runStartedAt point world).2 = false ∧
        ∀ skipped, (retireModules odooVersion names runStartedAt point world).1 = .ok skipped →
          name ∉ skipped ∧ (name ∈ names → retirableName name = true →
            nodesOf odooVersion name
              (retireModules odooVersion names runStartedAt point world).2 = []) := by
    intro point world stale
    have outcome := retireModules_outcome odooVersion names runStartedAt point world
    refine ⟨?_, ?_⟩
    · obtain ⟨test, filtered⟩ := outcome.shrinks name
      rw [recent_eq, List.any_eq_false] at stale ⊢
      intro node member
      rw [filtered] at member
      exact stale node (List.mem_of_mem_filter member)
    · intro skipped isOk
      rw [isOk] at outcome
      refine ⟨fun member => ?_, fun member retirable =>
        (outcome.deleted member retirable stale).2⟩
      have late := ((outcome.mem_skipped name).mp member).2
      rw [stale] at late
      cases late
  apply retrying_reaches
  · exact each none
  · intro point world stale
    have attempt := each (some point) world stale
    cases result : (retireModules odooVersion names runStartedAt (some point) world).1 with
    | ok out =>
        rw [result] at attempt
        exact Or.inl ⟨out, rfl, attempt⟩
    | error error => exact Or.inr ⟨error, rfl, attempt.1⟩
  · intro message world stale
    exact ⟨stale, fun _ isOk => by cases isOk⟩

theorem retried_cleared :
    Meets (fun _ => True) (retrying (retireModules odooVersion names runStartedAt) left raises)
      (fun result world => ∀ skipped, result = .ok skipped → ∀ name ∈ names,
        retirableName name = true → name ∉ skipped → nodesOf odooVersion name world = []) := by
  have each : ∀ point world skipped,
      (retireModules odooVersion names runStartedAt point world).1 = .ok skipped →
      ∀ name ∈ names, retirableName name = true → name ∉ skipped →
        nodesOf odooVersion name
          (retireModules odooVersion names runStartedAt point world).2 = [] := by
    intro point world skipped isOk name member retirable notSkipped
    have outcome := retireModules_outcome odooVersion names runStartedAt point world
    rw [isOk] at outcome
    by_cases late : recent odooVersion name runStartedAt world = true
    · exact absurd ((outcome.mem_skipped name).mpr ⟨⟨member, retirable⟩, late⟩) notSkipped
    · exact (outcome.deleted member retirable (by simpa using late)).2
  apply retrying_reaches
  · exact fun world _ skipped isOk => each none world skipped isOk
  · intro point world _
    cases result : (retireModules odooVersion names runStartedAt (some point) world).1 with
    | ok out => exact Or.inl ⟨out, rfl, fun skipped isOk => each (some point) world skipped
        (result.trans isOk)⟩
    | error error => exact Or.inr ⟨error, rfl, trivial⟩
  · intro message world _ skipped isOk
    cases isOk

theorem retried_recent (nodes : List ModuleNode)
    (late : nodes.any (fun node => !writtenBefore runStartedAt node.lastSeenAt) = true)
    (member : name ∈ names) (retirable : retirableName name = true) :
    Meets (fun world => nodesOf odooVersion name world = nodes)
      (retrying (retireModules odooVersion names runStartedAt) left raises)
      (fun result world => nodesOf odooVersion name world = nodes ∧
        ∀ skipped, result = .ok skipped → name ∈ skipped) := by
  have each : ∀ point world, nodesOf odooVersion name world = nodes →
      nodesOf odooVersion name
          (retireModules odooVersion names runStartedAt point world).2 = nodes ∧
        ∀ skipped, (retireModules odooVersion names runStartedAt point world).1 = .ok skipped →
          name ∈ skipped := by
    intro point world same
    have outcome := retireModules_outcome odooVersion names runStartedAt point world
    have isRecent : recent odooVersion name runStartedAt world = true := by
      rw [recent_eq, same]
      exact late
    refine ⟨?_, ?_⟩
    · rw [outcome.untargeted (fun _ target => by rw [isRecent] at target; cases target.2.2)]
      exact same
    · intro skipped isOk
      rw [isOk] at outcome
      exact (outcome.mem_skipped name).mpr ⟨⟨member, retirable⟩, isRecent⟩
  apply retrying_reaches
  · exact each none
  · intro point world same
    have attempt := each (some point) world same
    cases result : (retireModules odooVersion names runStartedAt (some point) world).1 with
    | ok out =>
        rw [result] at attempt
        exact Or.inl ⟨out, rfl, attempt⟩
    | error error => exact Or.inr ⟨error, rfl, attempt.1⟩
  · intro message world same
    exact ⟨same, fun _ isOk => by cases isOk⟩

theorem retried_spared (nodes : List ModuleNode)
    (stale : nodes.any (fun node => !writtenBefore runStartedAt node.lastSeenAt) = false)
    (member : name ∈ names) (retirable : retirableName name = true)
    (spared : ∀ raised ∈ raises, spares nodes raised.point = true) :
    ∀ left, settled left raises = false →
      Meets (fun world => nodesOf odooVersion name world = nodes)
        (retrying (retireModules odooVersion names runStartedAt) left raises)
        (fun result world => nodesOf odooVersion name world = nodes ∧
          ∃ error, result = .error error) := by
  induction raises with
  | nil => intro left ends; cases ends
  | cons raised rest ih =>
      intro left ends world same
      have outcome := retireModules_outcome odooVersion names runStartedAt (some raised.point)
        world
      have old : recent odooVersion name runStartedAt world = false := by
        rw [recent_eq, same]
        exact stale
      unfold retrying
      cases ran : retireModules odooVersion names runStartedAt (some raised.point) world with
      | mk result after =>
          rw [ran] at outcome
          cases result with
          | ok skipped => cases (outcome.deleted member retirable old).1
          | error error =>
              have kept : nodesOf odooVersion name after = nodes := by
                rw [outcome.spared (by rw [same]; exact spared raised List.mem_cons_self)]
                exact same
              simp only
              split
              · exact ⟨kept, raised.message, rfl⟩
              · rename_i again
                refine ih (fun other otherIn => spared other (List.mem_cons_of_mem _ otherIn))
                  (left - 1) ?_ after kept
                simp only [Bool.or_eq_true, decide_eq_true_eq, Bool.not_eq_true', not_or,
                  not_le, Bool.not_eq_false] at again
                simpa [settled, again] using ends

theorem retireModules_returns :
    Returns (retireModules odooVersion names runStartedAt none) := by
  intro world
  have outcome := retireModules_outcome odooVersion names runStartedAt none world
  rcases outcome with ⟨-, isOk, -⟩ | ⟨faulty, -⟩ | ⟨-, -, isOk, -⟩
  · exact ⟨_, isOk⟩
  · cases faulty
  · exact ⟨_, isOk⟩

theorem deleteEmbeddings_clean (gone profiles : List String) :
    Meets (Trail odooVersion name nodes gone) (deleteEmbeddings odooVersion name profiles none)
      (fun _ world => Trail odooVersion name nodes (profiles ++ gone) world) := by
  intro world trail
  unfold deleteEmbeddings
  split
  · rename_i nothing
    refine ⟨trail.nodes, fun row rowIn version module member => ?_⟩
    have empty : profiles.filter ownedProfile = [] := by
      simpa [List.isEmpty_iff] using nothing
    rcases List.mem_append.mp member with deleted | before
    · simpa using List.filter_eq_nil_iff.mp empty row.profileName deleted
    · exact trail.embeddings row rowIn version module before
  · refine ⟨trail.nodes, fun row rowIn version module member => ?_⟩
    obtain ⟨rowIn, left⟩ := List.mem_filter.mp rowIn
    rcases List.mem_append.mp member with deleted | before
    · simpa [version, module, deleted] using left
    · exact trail.embeddings row rowIn version module before

theorem deleteEmbeddings_afterCommit (profiles : List String) (world : World) :
    (deleteEmbeddings odooVersion name profiles (some .afterCommit) world).2 =
      (deleteEmbeddings odooVersion name profiles none world).2 := by
  unfold deleteEmbeddings
  split <;> rfl

theorem retried_embeddings (gone profiles : List String)
    (raises : List (Raised EmbeddingPoint String)) (left : Nat) :
    Meets (Trail odooVersion name nodes gone)
      (retrying (deleteEmbeddings odooVersion name profiles) left raises)
      (fun result world => Trail odooVersion name nodes gone world ∧
        (result = .ok () → Trail odooVersion name nodes (profiles ++ gone) world)) := by
  have kept : ∀ point, Keeps (Trail odooVersion name nodes gone)
      (deleteEmbeddings odooVersion name profiles point) :=
    deleteEmbeddings_trail _ name profiles
  apply retrying_reaches
  · exact fun world trail => ⟨kept none world trail,
      fun _ => deleteEmbeddings_clean gone profiles world trail⟩
  · intro point world trail
    have after := kept (some point) world trail
    cases result : (deleteEmbeddings odooVersion name profiles (some point) world).1 with
    | error error => exact Or.inr ⟨error, rfl, after⟩
    | ok out =>
        refine Or.inl ⟨out, rfl, after, fun _ => ?_⟩
        have clean := deleteEmbeddings_clean gone profiles world trail
        unfold deleteEmbeddings at clean result ⊢
        split at clean
        · rename_i nothing
          rw [if_pos nothing]
          exact clean
        · rename_i some'
          rw [if_neg some'] at result
          cases point <;> cases result
  · intro message world trail
    exact ⟨trail, fun isOk => by cases isOk⟩

def deletes : Nat → List (Raised EmbeddingPoint String) → Bool
  | _, [] => true
  | left, raised :: rest =>
      raised.point == .afterCommit ||
        (left > 1 && raised.transient && deletes (left - 1) rest)

theorem retried_deletes (gone profiles : List String)
    (raises : List (Raised EmbeddingPoint String)) :
    ∀ left, deletes left raises = true → Meets (Trail odooVersion name nodes gone)
      (retrying (deleteEmbeddings odooVersion name profiles) left raises)
      (fun _ world => Trail odooVersion name nodes (profiles ++ gone) world) := by
  induction raises with
  | nil => exact fun _ _ => deleteEmbeddings_clean gone profiles
  | cons raised rest ih =>
      intro left commits world trail
      by_cases committed : raised.point = .afterCommit
      · have deleted := deleteEmbeddings_clean gone profiles world trail
        rw [← deleteEmbeddings_afterCommit, ← committed] at deleted
        have kept : Keeps (Trail odooVersion name nodes (profiles ++ gone))
            (retrying (deleteEmbeddings odooVersion name profiles) (left - 1) rest) :=
          keeps_retrying _ (deleteEmbeddings_trail _ name profiles) rest (left - 1)
        unfold retrying
        cases ran : deleteEmbeddings odooVersion name profiles (some raised.point) world with
        | mk result after =>
            rw [ran] at deleted
            cases result with
            | ok out => exact deleted
            | error error =>
                simp only
                split
                · exact deleted
                · exact kept after deleted
      · simp only [deletes, Bool.or_eq_true, beq_iff_eq, committed, false_or,
          Bool.and_eq_true, decide_eq_true_eq] at commits
        have again : ¬ (left ≤ 1 || !raised.transient) = true := by
          simp [commits.1.2]
          omega
        have kept := deleteEmbeddings_trail odooVersion name profiles (some raised.point) world
          trail
        have returned := retried_embeddings gone profiles [raised] 1 world trail
        unfold retrying at returned ⊢
        cases ran : deleteEmbeddings odooVersion name profiles (some raised.point) world with
        | mk result after =>
            rw [ran] at kept returned
            cases result with
            | ok out => exact returned.2 rfl
            | error error =>
                simp only
                rw [if_neg again]
                exact ih (left - 1) commits.2 after kept

theorem deleteEmbeddings_returns (profiles : List String) :
    Returns (deleteEmbeddings odooVersion name profiles none) := by
  intro world
  unfold deleteEmbeddings
  split <;> exact ⟨(), rfl⟩

end Retried

end OdooSemantic.Reconcile.Cascade
