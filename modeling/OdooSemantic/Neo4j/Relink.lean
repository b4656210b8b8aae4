import OdooSemantic.Neo4j.Placeholders

/-!
# Relations after the relink

Every kept relation traces back to a write, so a write's own lookup and what became
of its placeholder decide whether the relation survives the GC.
-/

set_option autoImplicit false

namespace OdooSemantic.Neo4j.Placeholders

section Relink
variable {graph : Graph}

/-- The declaring node has the relation's edge to a node its lookup accepts. -/
def Kept (graph : Graph) (relation : Relation) : Prop :=
  ∃ key, Edge.mk relation.kind relation.start key ∈ graph.edges ∧
    accepts graph relation key = true

theorem node_relinkThenGc {key : NodeKey} (real : isReal graph key = true) :
    (relinkThenGc graph).node key = graph.node key := by
  obtain ⟨node, found, resolved⟩ := isReal_iff.mp real
  simp [relinkThenGc, gcUnresolvedPlaceholders, relinkUnresolvedPlaceholders, found, resolved]

theorem isReal_relinkThenGc (key : NodeKey) :
    isReal (relinkThenGc graph) key = isReal graph key := by
  cases found : graph.node key with
  | none =>
      simp [isReal, relinkThenGc, gcUnresolvedPlaceholders, relinkUnresolvedPlaceholders, found]
  | some node =>
      cases flag : node.unresolved <;>
        simp [isReal, relinkThenGc, gcUnresolvedPlaceholders, relinkUnresolvedPlaceholders, found,
          flag]

theorem sound_relinkThenGc (sound : Sound graph) : Sound (relinkThenGc graph) := by
  have stays : ∀ key, ((relinkThenGc graph).node key).isSome = true → isReal graph key = true := by
    intro key present
    obtain ⟨node, found⟩ := Option.isSome_iff_exists.mp present
    obtain ⟨before, resolved⟩ := Option.filter_eq_some_iff.mp found
    exact isReal_iff.mpr ⟨node, before, by simpa using resolved⟩
  refine ⟨?_, ?_⟩
  · intro key present
    have real := stays key present
    refine List.mem_filter.mpr ⟨sound.keyed key (present_of_real real), ?_⟩
    rw [Bool.not_eq_true']
    exact isUnresolved_of_real real
  · intro key defined
    rw [isReal_relinkThenGc]
    apply stays
    cases found : (relinkThenGc graph).node key with
    | none => simp [found] at defined
    | some node => rfl

theorem accepts_relinkThenGc (sound : Sound graph) (relation : Relation) (key : NodeKey) :
    accepts (relinkThenGc graph) relation key = true ↔ accepts graph relation key = true := by
  by_cases real : isReal graph key = true
  · have node := node_relinkThenGc real
    have same := @isReal_relinkThenGc graph key
    cases relation <;> cases key <;> simp only [accepts, node, same]
  · constructor
    · intro accepted
      have finalReal := accepts_real (sound_relinkThenGc sound) accepted
      rw [isReal_relinkThenGc] at finalReal
      exact absurd finalReal real
    · intro accepted
      exact absurd (accepts_real sound accepted) real

theorem relinkEdge_of_real {edge : Edge} (real : isReal graph edge.finish = true) :
    relinkEdge graph edge = edge := by
  have nothing : relinkTargets graph edge = [] := by
    simp [relinkTargets, isUnresolved_of_real real]
  simp [relinkEdge, nothing, pick]

theorem kept_of_edge (sound : Sound graph) {relation : Relation} {finish : NodeKey}
    (start : isReal graph relation.start = true)
    (edge : Edge.mk relation.kind relation.start finish ∈ graph.edges)
    (accepted : accepts graph relation
      (relinkEdge graph ⟨relation.kind, relation.start, finish⟩).finish = true) :
    Kept (relinkThenGc graph) relation := by
  refine ⟨(relinkEdge graph ⟨relation.kind, relation.start, finish⟩).finish, ?_,
    (accepts_relinkThenGc sound relation _).mpr accepted⟩
  refine List.mem_filter.mpr ⟨List.mem_map.mpr ⟨_, edge, rfl⟩, ?_⟩
  rw [Bool.and_eq_true, Bool.not_eq_true', Bool.not_eq_true']
  exact ⟨isUnresolved_of_real start, isUnresolved_of_real (accepts_real sound accepted)⟩

theorem kept_of_accepted_edge (sound : Sound graph) {relation : Relation} {finish : NodeKey}
    (start : isReal graph relation.start = true)
    (edge : Edge.mk relation.kind relation.start finish ∈ graph.edges)
    (accepted : accepts graph relation finish = true) : Kept (relinkThenGc graph) relation := by
  refine kept_of_edge sound start edge ?_
  rw [relinkEdge_of_real (accepts_real sound accepted)]
  exact accepted

theorem edge_of_kept (sound : Sound graph) {relation : Relation}
    (kept : Kept (relinkThenGc graph) relation) :
    ∃ edge ∈ graph.edges, edge.kind = relation.kind ∧ edge.start = relation.start ∧
      accepts graph relation (relinkEdge graph edge).finish = true := by
  obtain ⟨key, edgeIn, accepted⟩ := kept
  obtain ⟨edge, old, moved⟩ := List.mem_map.mp (List.mem_of_mem_filter edgeIn)
  refine ⟨edge, old, congrArg Edge.kind moved, congrArg Edge.start moved, ?_⟩
  rw [moved]
  exact (accepts_relinkThenGc sound relation key).mp accepted

theorem relinkEdge_moves {edge : Edge} {key : NodeKey} (candidate : key ∈ relinkTargets graph edge) :
    (relinkEdge graph edge).finish ∈ relinkTargets graph edge := by
  obtain ⟨picked, found⟩ := @pick_some graph _ key candidate
  rw [relinkEdge, found]
  exact pick_mem found

theorem relinkEdge_finish (edge : Edge) :
    (relinkEdge graph edge).finish = edge.finish ∨
      (relinkEdge graph edge).finish ∈ relinkTargets graph edge := by
  unfold relinkEdge
  cases found : pick graph (relinkTargets graph edge) with
  | none => exact Or.inl rfl
  | some key => exact Or.inr (pick_mem found)

end Relink

structure LeftBy (graph : Graph) (relation : Relation) (edge : Edge) : Prop where
  start : edge.start = relation.start
  finish : edge.finish ∈ targets graph relation ∧ edge.kind = relation.kind ∨
    targets graph relation = [] ∧ bundleFallback graph relation = none ∧
      relation.placeholder = some edge.finish ∧ edge.kind = relation.kind ∨
    edge.kind = .extendsAssetBundle

def WrittenAt (steps : List Step) (relation : Relation) (found : Graph) : Prop :=
  ∃ earlier later, steps = earlier ++ .relate relation :: later ∧ found = build earlier

theorem WrittenAt.snoc {steps : List Step} {relation : Relation} {found : Graph}
    (written : WrittenAt steps relation found) (step : Step) :
    WrittenAt (steps ++ [step]) relation found := by
  obtain ⟨earlier, later, rfl, isFound⟩ := written
  exact ⟨earlier, later ++ [step], by simp, isFound⟩

theorem WrittenAt.grows {steps : List Step} {relation : Relation} {found : Graph}
    (written : WrittenAt steps relation found) :
    Sound found ∧ Grows found (build steps) ∧ Grows (relate found relation) (build steps) := by
  obtain ⟨earlier, later, rfl, rfl⟩ := written
  refine ⟨sound_build earlier, grows_build _ _, ?_⟩
  have after := grows_build (earlier ++ [.relate relation]) later
  rw [build_snoc, List.append_assoc] at after
  exact after

theorem edge_origin (steps : List Step) {edge : Edge} (edgeIn : edge ∈ (build steps).edges) :
    ∃ relation found, WrittenAt steps relation found ∧ LeftBy found relation edge := by
  induction steps using List.reverseRecOn with
  | nil => cases edgeIn
  | append_singleton steps step ih =>
      rw [build_snoc] at edgeIn
      have older : edge ∈ (build steps).edges → ∃ relation found,
          WrittenAt (steps ++ [step]) relation found ∧ LeftBy found relation edge := by
        intro old
        obtain ⟨relation, found, written, left⟩ := ih old
        exact ⟨relation, found, written.snoc step, left⟩
      cases step with
      | node key isDefinition recordXmlid => exact older edgeIn
      | relate relation =>
          have written : WrittenAt (steps ++ [.relate relation]) relation (build steps) :=
            ⟨steps, [], rfl, rfl⟩
          simp only [Step.apply] at edgeIn
          rcases @relate_cases (build steps) relation with ⟨edges, -, -, -⟩ |
            ⟨bundle, -, -, related⟩ | ⟨key, nothing, noBundle, placeholder, related⟩ |
            ⟨-, -, -, edges⟩
          · exact older (edges ▸ edgeIn)
          · rw [related] at edgeIn
            rcases List.mem_insert_iff.mp edgeIn with rfl | old
            · exact ⟨relation, _, written, rfl, Or.inr (Or.inr rfl)⟩
            · exact older old
          · rw [related] at edgeIn
            rcases List.mem_insert_iff.mp edgeIn with rfl | old
            · exact ⟨relation, _, written, rfl,
                Or.inr (Or.inl ⟨nothing, noBundle, placeholder, rfl⟩)⟩
            · refine older ?_
              unfold mergePlaceholder at old
              split at old <;> exact old
          · rcases (edges edge).mp edgeIn with old | ⟨key, keyIn, rfl⟩
            · exact older old
            · exact ⟨relation, _, written, rfl, Or.inl ⟨keyIn, rfl⟩⟩

theorem edge_of_target {steps : List Step} {relation : Relation} {found : Graph}
    (written : WrittenAt steps relation found) (start : (found.node relation.start).isSome = true)
    {key : NodeKey} (target : key ∈ targets found relation) :
    Edge.mk relation.kind relation.start key ∈ (build steps).edges := by
  apply written.grows.2.2.edges
  rcases @relate_cases found relation with ⟨-, -, -, absent | ⟨nothing, -⟩⟩ | ⟨bundle, nothing, -, -⟩ |
    ⟨key, nothing, -, -, -⟩ | ⟨-, -, -, edges⟩
  · rw [Option.isNone_iff_eq_none.mp absent] at start
    cases start
  · rw [nothing] at target
    cases target
  · rw [nothing] at target
    cases target
  · rw [nothing] at target
    cases target
  · exact (edges _).mpr (Or.inr ⟨key, target, rfl⟩)

theorem relate_placeholder {relation : Relation} {found : Graph}
    (start : (found.node relation.start).isSome = true) (nothing : targets found relation = [])
    (noBundle : bundleFallback found relation = none) {key : NodeKey}
    (placeholder : relation.placeholder = some key) :
    relate found relation =
      mergeEdge (mergePlaceholder found key) ⟨relation.kind, relation.start, key⟩ := by
  have present : ¬ (found.node relation.start).isNone = true := by
    rw [Option.isNone_iff_eq_none]
    intro absent
    rw [absent] at start
    cases start
  simp [relate, present, nothing, noBundle, placeholder]

theorem edge_of_placeholder {steps : List Step} {relation : Relation} {found : Graph}
    (written : WrittenAt steps relation found) (start : (found.node relation.start).isSome = true)
    (nothing : targets found relation = []) (noBundle : bundleFallback found relation = none)
    {key : NodeKey} (placeholder : relation.placeholder = some key) :
    Edge.mk relation.kind relation.start key ∈ (build steps).edges := by
  apply written.grows.2.2.edges
  rw [relate_placeholder start nothing noBundle placeholder]
  exact List.mem_insert_self

theorem placeholder_present {steps : List Step} {relation : Relation} {found : Graph}
    (written : WrittenAt steps relation found) (start : (found.node relation.start).isSome = true)
    (nothing : targets found relation = []) (noBundle : bundleFallback found relation = none)
    {key : NodeKey} (placeholder : relation.placeholder = some key) :
    isReal (build steps) key = true ∨ isUnresolved (build steps) key = true := by
  apply real_or_unresolved
  apply written.grows.2.2.present
  rw [relate_placeholder start nothing noBundle placeholder]
  exact present_mergePlaceholder key

/-- What the writers' results guarantee of the steps: the declaring node is written first, no
module is called `__unresolved__`, and an `_inherit` of the own name is no parent. -/
structure Proper (steps : List Step) : Prop where
  placed : ∀ relation found, WrittenAt steps relation found → isReal found relation.start = true
  models : ∀ name, isReal (build steps) (.model name none) = false
  comps : ∀ name, isReal (build steps) (.owlComp name none) = false
  parents : ∀ model module parent, Step.relate (.inherits model module parent) ∈ steps →
    parent ≠ model

/-- A template the relink may move a placeholder edge of `xmlid` to. -/
def Recorded (graph : Graph) (xmlid base : String) (key : NodeKey) : Prop :=
  ∃ other, key = .qwebTmpl other ∧ isReal graph key = true ∧ other ≠ xmlid ∧
    (graph.node key).any (·.recordXmlid == some base) = true

/-- The template a placeholder stands for: its own record, or else the first template recorded
under its name. -/
def StandsFor (graph : Graph) (xmlid base : String) (key : NodeKey) : Prop :=
  if isReal graph (.qwebTmpl base) then key = .qwebTmpl base
  else Recorded graph xmlid base key ∧
    ∀ other, Recorded graph xmlid base other → prefers graph key other = true

/-- The relation was written once its target was there, it left a placeholder that stands for a
target by now, or it is of a kind whose placeholders always do. -/
def Settled (steps : List Step) : Relation → Prop
  | .inherits _ _ _ => True
  | .delegatesTo _ _ _ _ => True
  | .inheritsView _ _ => True
  | .extends model module => ∃ found, WrittenAt steps (.extends model module) found ∧
      targets found (.extends model module) ≠ []
  | .patches target patchName module =>
      ∃ found, WrittenAt steps (.patches target patchName module) found ∧
        targets found (.patches target patchName module) ≠ []
  | .extendsTmpl xmlid base =>
      ∃ written found, WrittenAt steps (.extendsTmpl xmlid written) found ∧
        ((∃ key ∈ targets found (.extendsTmpl xmlid written),
            accepts (build steps) (.extendsTmpl xmlid base) key = true) ∨
          targets found (.extendsTmpl xmlid written) = [] ∧
            bundleFallback found (.extendsTmpl xmlid written) = none ∧
            ∃ key, StandsFor (build steps) xmlid written key ∧
              accepts (build steps) (.extendsTmpl xmlid base) key = true)

section Keeping
variable {steps : List Step} {relation : Relation} {found graph : Graph}

theorem WrittenAt.mem (written : WrittenAt steps relation found) : Step.relate relation ∈ steps := by
  obtain ⟨earlier, later, rfl, -⟩ := written
  simp

theorem writtenAt_of_mem (declared : Step.relate relation ∈ steps) :
    ∃ found, WrittenAt steps relation found := by
  obtain ⟨earlier, later, split⟩ := List.append_of_mem declared
  exact ⟨build earlier, earlier, later, split, rfl⟩

theorem Proper.start (proper : Proper steps) (written : WrittenAt steps relation found) :
    (found.node relation.start).isSome = true ∧ isReal (build steps) relation.start = true := by
  have real := proper.placed relation found written
  exact ⟨present_of_real real, written.grows.2.1.real _ real⟩

theorem kept_of_target (proper : Proper steps) (written : WrittenAt steps relation found)
    {key : NodeKey} (target : key ∈ targets found relation)
    (accepted : accepts (build steps) relation key = true) :
    Kept (relinkThenGc (build steps)) relation :=
  kept_of_accepted_edge (sound_build steps) (proper.start written).2
    (edge_of_target written (proper.start written).1 target) accepted

theorem kept_of_found (proper : Proper steps) (written : WrittenAt steps relation found)
    (other : relation.kind ≠ .extendsTmpl) (some : targets found relation ≠ []) :
    Kept (relinkThenGc (build steps)) relation := by
  obtain ⟨key, target⟩ := List.exists_mem_of_ne_nil _ some
  exact kept_of_target proper written target
    (accepts_grows written.grows.2.1 other (accepts_of_target target))

theorem accepts_model_iff {parent : String} {key : NodeKey}
    (placeholder : relation.placeholder = some (.model parent none)) :
    accepts graph relation key = true ↔
      (∃ module, key = .model parent module) ∧ isReal graph key = true := by
  cases relation <;> cases placeholder <;> cases key <;> simp [accepts]

theorem mem_relinkTargets_model {parent : String} {key : NodeKey}
    (placeholder : relation.placeholder = some (.model parent none))
    (unresolved : isUnresolved graph (.model parent none) = true)
    (start : isReal graph relation.start = true) :
    key ∈ relinkTargets graph ⟨relation.kind, relation.start, .model parent none⟩ ↔
      key ∈ graph.keys ∧ (∃ module, key = .model parent (some module)) ∧
        isReal graph key = true ∧ key ≠ relation.start := by
  cases relation <;> cases placeholder <;> cases key with
  | model name module =>
      cases module <;> simp [relinkTargets, unresolved, start, Relation.kind, and_assoc]
  | _ => simp [relinkTargets, unresolved, start, Relation.kind]

theorem kept_by_relink (proper : Proper steps) (written : WrittenAt steps relation found)
    {parent : String} (placeholder : relation.placeholder = some (.model parent none))
    (nothing : targets found relation = []) {key : NodeKey}
    (accepted : accepts (build steps) relation key = true) :
    Kept (relinkThenGc (build steps)) relation := by
  obtain ⟨present, start⟩ := proper.start written
  have noBundle : bundleFallback found relation = none := by
    cases relation <;> cases placeholder <;> rfl
  have edge := edge_of_placeholder written present nothing noBundle placeholder
  refine kept_of_edge (sound_build steps) start edge ?_
  obtain ⟨⟨module, isModel⟩, real⟩ := (accepts_model_iff placeholder).mp accepted
  have unresolved : isUnresolved (build steps) (.model parent none) = true := by
    rcases placeholder_present written present nothing noBundle placeholder with sentinel | unresolved
    · rw [proper.models parent] at sentinel
      cases sentinel
    · exact unresolved
  have named : ∃ name, module = some name := by
    cases module with
    | none =>
        rw [isModel, proper.models parent] at real
        cases real
    | some name => exact ⟨name, rfl⟩
  obtain ⟨name, rfl⟩ := named
  have apart : key ≠ relation.start := by
    intro same
    have acceptedThen : accepts found relation key = true := by
      refine (accepts_model_iff placeholder).mpr ⟨⟨some name, isModel⟩, ?_⟩
      rw [same]
      exact proper.placed relation found written
    exact targets_ne_nil written.grows.1 acceptedThen nothing
  have candidate : key ∈ relinkTargets (build steps)
      ⟨relation.kind, relation.start, .model parent none⟩ :=
    (mem_relinkTargets_model placeholder unresolved start).mpr
      ⟨(sound_build steps).keyed key (present_of_real real), ⟨name, isModel⟩, real, apart⟩
  have moved := relinkEdge_moves candidate
  obtain ⟨-, ⟨other, isOther⟩, otherReal, -⟩ :=
    (mem_relinkTargets_model placeholder unresolved start).mp moved
  exact (accepts_model_iff placeholder).mpr ⟨⟨some other, isOther⟩, otherReal⟩

theorem mem_relinkTargets_tmpl (sound : Sound graph) {xmlid base : String} {key : NodeKey}
    (unresolved : isUnresolved graph (.qwebTmpl base) = true)
    (start : isReal graph (.qwebTmpl xmlid) = true) :
    key ∈ relinkTargets graph ⟨.extendsTmpl, .qwebTmpl xmlid, .qwebTmpl base⟩ ↔
      Recorded graph xmlid base key := by
  have listed : isReal graph key = true → key ∈ graph.keys := fun real =>
    sound.keyed key (present_of_real real)
  cases key with
  | qwebTmpl other =>
      simp only [relinkTargets, Recorded, unresolved, start, Bool.not_true, Bool.or_self,
        Bool.false_eq_true, if_false, List.mem_filter, Bool.and_eq_true, bne_iff_ne, ne_eq,
        NodeKey.qwebTmpl.injEq, and_assoc, exists_eq_left']
      exact ⟨fun candidate => candidate.2, fun recorded => ⟨listed recorded.1, recorded⟩⟩
  | _ => simp [relinkTargets, Recorded, unresolved, start]

theorem standsFor_unique {xmlid base : String} {key other : NodeKey}
    (first : StandsFor graph xmlid base key) (second : StandsFor graph xmlid base other) :
    key = other := by
  unfold StandsFor at first second
  split at first
  · rename_i real
    rw [if_pos real] at second
    exact first.trans second.symm
  · rename_i real
    rw [if_neg real] at second
    have before := prefers_iff.mp (first.2 other second.1)
    have after := prefers_iff.mp (second.2 key first.1)
    obtain ⟨⟨name, rfl, -⟩, -⟩ := first
    obtain ⟨⟨otherName, rfl, -⟩, -⟩ := second
    have same : name = otherName := by
      rcases before with ⟨defined, undefined⟩ | ⟨same, before⟩
      · rcases after with ⟨defined', -⟩ | ⟨same, -⟩
        · rw [undefined] at defined'
          cases defined'
        · rw [same, defined] at undefined
          cases undefined
      · rcases after with ⟨defined', undefined'⟩ | ⟨-, after⟩
        · rw [same, defined'] at undefined'
          cases undefined'
        · exact String.le_antisymm before after
    rw [same]

theorem relinked_template (sound : Sound graph) {xmlid written base : String}
    (start : isReal graph (.qwebTmpl xmlid) = true)
    (placeholder : isReal graph (.qwebTmpl written) = true ∨
      isUnresolved graph (.qwebTmpl written) = true) :
    accepts graph (.extendsTmpl xmlid base)
        (relinkEdge graph ⟨.extendsTmpl, .qwebTmpl xmlid, .qwebTmpl written⟩).finish = true ↔
      ∃ key, StandsFor graph xmlid written key ∧
        accepts graph (.extendsTmpl xmlid base) key = true := by
  by_cases real : isReal graph (.qwebTmpl written) = true
  · rw [relinkEdge_of_real real]
    simp [StandsFor, real]
  · have unresolved := placeholder.resolve_left real
    have stands : ∀ key, StandsFor graph xmlid written key ↔ Recorded graph xmlid written key ∧
        ∀ other, Recorded graph xmlid written other → prefers graph key other = true := by
      intro key
      rw [StandsFor, if_neg real]
    cases picked : pick graph
        (relinkTargets graph ⟨.extendsTmpl, .qwebTmpl xmlid, .qwebTmpl written⟩) with
    | none =>
        rw [relinkEdge, picked]
        constructor
        · intro accepted
          exact absurd (accepts_real sound accepted) real
        · rintro ⟨key, standsFor, -⟩
          have recorded := ((stands key).mp standsFor).1
          obtain ⟨other, some⟩ := @pick_some graph _ key
            ((mem_relinkTargets_tmpl sound unresolved start).mpr recorded)
          rw [picked] at some
          cases some
    | some best =>
        have bestStands : StandsFor graph xmlid written best := by
          refine (stands best).mpr
            ⟨(mem_relinkTargets_tmpl sound unresolved start).mp (pick_mem picked), ?_⟩
          intro other recorded
          exact pick_prefers picked other
            ((mem_relinkTargets_tmpl sound unresolved start).mpr recorded)
        rw [relinkEdge, picked]
        constructor
        · intro accepted
          exact ⟨best, bestStands, accepted⟩
        · rintro ⟨key, standsFor, accepted⟩
          rw [standsFor_unique standsFor bestStands] at accepted
          exact accepted

theorem kept_of_settled (proper : Proper steps) (declared : Step.relate relation ∈ steps)
    (target : ∃ key, accepts (build steps) relation key = true) (settled : Settled steps relation) :
    Kept (relinkThenGc (build steps)) relation := by
  obtain ⟨key, accepted⟩ := target
  obtain ⟨found, written⟩ := writtenAt_of_mem declared
  cases relation with
  | inherits model module parent =>
      by_cases nothing : targets found (.inherits model module parent) = []
      · exact kept_by_relink proper written rfl nothing accepted
      · exact kept_of_found proper written (by simp [Relation.kind]) nothing
  | delegatesTo model module delegated viaField =>
      by_cases nothing : targets found (.delegatesTo model module delegated viaField) = []
      · exact kept_by_relink proper written rfl nothing accepted
      · exact kept_of_found proper written (by simp [Relation.kind]) nothing
  | inheritsView xmlid base =>
      by_cases nothing : targets found (.inheritsView xmlid base) = []
      · obtain ⟨present, start⟩ := proper.start written
        have edge := edge_of_placeholder written present nothing rfl rfl
        refine kept_of_accepted_edge (sound_build steps) start edge ?_
        cases key <;> simp only [accepts, Bool.and_eq_true, Bool.false_eq_true, beq_iff_eq] at accepted ⊢
        rw [accepted.1] at accepted
        exact ⟨trivial, accepted.2⟩
      · exact kept_of_found proper written (by simp [Relation.kind]) nothing
  | «extends» model module =>
      obtain ⟨found, written, some⟩ := settled
      exact kept_of_found proper written (by simp [Relation.kind]) some
  | patches target patchName module =>
      obtain ⟨found, written, some⟩ := settled
      exact kept_of_found proper written (by simp [Relation.kind]) some
  | extendsTmpl xmlid base =>
      obtain ⟨base', found, written, settled⟩ := settled
      obtain ⟨present, start⟩ := proper.start written
      rcases settled with ⟨key, target, accepted⟩ | ⟨nothing, noBundle, stands⟩
      · exact kept_of_accepted_edge (sound_build steps) start (edge_of_target written present target)
          accepted
      · refine kept_of_edge (sound_build steps) start
          (edge_of_placeholder written present nothing noBundle rfl) ?_
        exact (relinked_template (sound_build steps) start
          (placeholder_present written present nothing noBundle rfl)).mpr stands

theorem relinkEdge_of_target (written : WrittenAt steps relation found) {edge : Edge}
    (target : edge.finish ∈ targets found relation) : relinkEdge (build steps) edge = edge := by
  have real := accepts_real written.grows.1 (accepts_of_target target)
  exact relinkEdge_of_real (written.grows.2.1.real _ real)

theorem model_of_relinkTargets {start key : NodeKey} {parent : String}
    (candidate : key ∈ relinkTargets graph ⟨.inherits, start, .model parent none⟩) :
    ∃ module, key = .model parent module := by
  unfold relinkTargets at candidate
  split at candidate
  · cases candidate
  · cases key with
    | model name module =>
        cases module with
        | none => simp at candidate
        | some module =>
            simp only [List.mem_filter, Bool.and_eq_true, beq_iff_eq] at candidate
            exact ⟨some module, by rw [candidate.2.1.1]⟩
    | _ => simp at candidate

/-- No edge of a parent serves an `_inherit` of the own name. -/
theorem not_extends_of_inherits {model module parent : String} (apart : parent ≠ model)
    {edge : Edge} (written : WrittenAt steps (.inherits model module parent) found)
    (left : LeftBy found (.inherits model module parent) edge) (isInherits : edge.kind = .inherits) :
    accepts (build steps) (.extends model module) (relinkEdge (build steps) edge).finish = false := by
  have named : ∃ other, (relinkEdge (build steps) edge).finish = .model parent other := by
    rcases left.finish with ⟨target, -⟩ | ⟨-, -, placeholder, -⟩ | bundle
    · rw [relinkEdge_of_target written target]
      obtain ⟨⟨other, isModel⟩, -⟩ := (accepts_model_iff rfl).mp (accepts_of_target target)
      exact ⟨other, isModel⟩
    · have finish := Option.some.inj placeholder
      rcases @relinkEdge_finish (build steps) edge with same | moved
      · exact ⟨none, same.trans finish.symm⟩
      · have whole : edge = ⟨.inherits, edge.start, .model parent none⟩ := by
          rw [finish, ← isInherits]
        rw [whole] at moved ⊢
        exact model_of_relinkTargets moved
    · rw [isInherits] at bundle
      cases bundle
  obtain ⟨other, isModel⟩ := named
  rw [isModel]
  simp [accepts, apart]

theorem LeftBy.own {writer relation : Relation} {found : Graph} {edge : Edge}
    (left : LeftBy found writer edge) (isKind : edge.kind = relation.kind) :
    writer.kind = relation.kind ∧ (edge.finish ∈ targets found writer ∨
      targets found writer = [] ∧ bundleFallback found writer = none ∧
        writer.placeholder = some edge.finish) := by
  rcases left.finish with ⟨target, same⟩ | ⟨nothing, noBundle, placeholder, same⟩ | bundle
  · exact ⟨same.symm.trans isKind, Or.inl target⟩
  · exact ⟨same.symm.trans isKind, Or.inr ⟨nothing, noBundle, placeholder⟩⟩
  · rw [isKind] at bundle
    cases relation <;> cases bundle

theorem settled_of_kept (proper : Proper steps)
    (kept : Kept (relinkThenGc (build steps)) relation) : Settled steps relation := by
  obtain ⟨edge, edgeIn, isKind, isStart, accepted⟩ := edge_of_kept (sound_build steps) kept
  obtain ⟨writer, found, written, left⟩ := edge_origin steps edgeIn
  have start : writer.start = relation.start := left.start.symm.trans isStart
  obtain ⟨kind, ownEdge⟩ := left.own isKind
  cases relation with
  | inherits model module parent | delegatesTo model module delegated viaField
  | inheritsView xmlid base => trivial
  | «extends» model module =>
      cases writer with
      | «extends» other otherModule =>
          cases start
          rcases ownEdge with target | ⟨-, -, placeholder⟩
          · exact ⟨found, written, List.ne_nil_of_mem target⟩
          · cases placeholder
      | inherits other otherModule parent =>
          cases start
          have refused := not_extends_of_inherits (proper.parents _ _ _ written.mem) written left isKind
          rw [refused] at accepted
          cases accepted
      | _ => cases kind
  | patches target patchName module =>
      cases writer with
      | patches other otherName otherModule =>
          cases start
          rcases ownEdge with found' | ⟨-, -, placeholder⟩
          · exact ⟨found, written, List.ne_nil_of_mem found'⟩
          · have finish := Option.some.inj placeholder
            have unmoved : relinkTargets (build steps) edge = [] := by
              simp [relinkTargets, isKind, Relation.kind]
            have same : (relinkEdge (build steps) edge).finish = .owlComp target none := by
              simp [relinkEdge, unmoved, pick, finish.symm]
            rw [same] at accepted
            simp [accepts, proper.comps target] at accepted
      | _ => cases kind
  | extendsTmpl xmlid base =>
      cases writer with
      | extendsTmpl other otherBase =>
          cases start
          obtain ⟨present, start⟩ := proper.start written
          refine ⟨otherBase, found, written, ?_⟩
          rcases ownEdge with target | ⟨nothing, noBundle, placeholder⟩
          · rw [relinkEdge_of_target written target] at accepted
            exact Or.inl ⟨edge.finish, target, accepted⟩
          · have whole : edge = ⟨.extendsTmpl, .qwebTmpl xmlid, .qwebTmpl otherBase⟩ := by
              obtain ⟨kind, start, finish⟩ := edge
              cases isKind
              cases isStart
              cases placeholder
              rfl
            rw [whole] at accepted
            exact Or.inr ⟨nothing, noBundle, (relinked_template (sound_build steps) start
              (placeholder_present written present nothing noBundle rfl)).mp accepted⟩
      | _ => cases kind

end Keeping

section Results
variable {steps nodes rest : List Step} {key : NodeKey}

theorem node_of_real (steps : List Step) (real : isReal (build steps) key = true) :
    ∃ isDefinition recordXmlid, Step.node key isDefinition recordXmlid ∈ steps := by
  induction steps using List.reverseRecOn with
  | nil => cases real
  | append_singleton steps step ih =>
      rw [build_snoc] at real
      have older : isReal (build steps) key = true → ∃ isDefinition recordXmlid,
          Step.node key isDefinition recordXmlid ∈ steps ++ [step] := by
        intro old
        obtain ⟨isDefinition, recordXmlid, written⟩ := ih old
        exact ⟨isDefinition, recordXmlid, List.mem_append_left _ written⟩
      cases step with
      | node written isDefinition recordXmlid =>
          by_cases same : key = written
          · exact ⟨isDefinition, recordXmlid, by simp [same]⟩
          · apply older
            simpa [isReal, Step.apply, mergeNode, Function.update_of_ne same] using real
      | relate relation =>
          simp only [Step.apply] at real
          apply older
          rcases @relate_cases (build steps) relation with ⟨-, nodes, -, -⟩ | ⟨bundle, -, -, related⟩ |
            ⟨placeholder, -, -, -, related⟩ | ⟨-, nodes, -, -⟩
          · simpa [isReal, nodes] using real
          · rw [related] at real
            exact real
          · rw [related] at real
            exact real_of_mergePlaceholder real
          · simpa [isReal, nodes] using real

/-- Every relation follows a write of its declaring node. -/
def Placed (steps : List Step) : Prop :=
  ∀ earlier relation later, steps = earlier ++ .relate relation :: later →
    ∃ isDefinition recordXmlid, Step.node relation.start isDefinition recordXmlid ∈ earlier

theorem Placed.nil : Placed [] := by
  intro earlier relation later split
  simp at split

/-- The relations of `rest` may also follow writes of `nodes`. -/
theorem Placed.append_of (placed : Placed nodes)
    (following : ∀ earlier relation later, rest = earlier ++ .relate relation :: later →
      ∃ isDefinition recordXmlid,
        Step.node relation.start isDefinition recordXmlid ∈ nodes ++ earlier) :
    Placed (nodes ++ rest) := by
  intro earlier relation later split
  rcases List.append_eq_append_iff.mp split with ⟨middle, rfl, isRest⟩ | ⟨middle, isNodes, tail⟩
  · exact following middle relation later isRest
  · cases middle with
    | nil =>
        rw [List.append_nil] at isNodes
        subst isNodes
        have after := following [] relation later tail.symm
        rw [List.append_nil] at after
        exact after
    | cons step middle =>
        rw [List.cons_append, List.cons.injEq] at tail
        obtain ⟨rfl, -⟩ := tail
        exact placed earlier relation middle isNodes

theorem Placed.append (first : Placed nodes) (second : Placed rest) : Placed (nodes ++ rest) := by
  apply first.append_of
  intro earlier relation later split
  obtain ⟨isDefinition, recordXmlid, written⟩ := second earlier relation later split
  exact ⟨isDefinition, recordXmlid, List.mem_append_right _ written⟩

theorem Placed.flatMap {α : Type} {items : List α} {stepsOf : α → List Step}
    (placed : ∀ item ∈ items, Placed (stepsOf item)) : Placed (items.flatMap stepsOf) := by
  induction items with
  | nil => exact Placed.nil
  | cons item rest ih =>
      rw [List.flatMap_cons]
      exact (placed item List.mem_cons_self).append
        (ih fun other inRest => placed other (List.mem_cons_of_mem _ inRest))

theorem Placed.of_nodes (noRelation : ∀ relation, Step.relate relation ∉ steps) : Placed steps := by
  intro earlier relation later split
  refine absurd ?_ (noRelation relation)
  simp [split]

/-- All node writes first, as the ORM writer does. -/
theorem Placed.nodes_then (placed : Placed nodes)
    (declared : ∀ relation, Step.relate relation ∈ rest →
      ∃ isDefinition recordXmlid, Step.node relation.start isDefinition recordXmlid ∈ nodes) :
    Placed (nodes ++ rest) := by
  apply placed.append_of
  intro earlier relation later split
  obtain ⟨isDefinition, recordXmlid, written⟩ := declared relation (by simp [split])
  exact ⟨isDefinition, recordXmlid, List.mem_append_left _ written⟩

theorem Placed.real {relation : Relation} {found : Graph} (placed : Placed steps)
    (written : WrittenAt steps relation found) : isReal found relation.start = true := by
  obtain ⟨earlier, later, split, rfl⟩ := written
  obtain ⟨isDefinition, recordXmlid, node⟩ := placed earlier relation later split
  obtain ⟨before, after, rfl⟩ := List.append_of_mem node
  have merged : isReal (build (before ++ [.node relation.start isDefinition recordXmlid]))
      relation.start = true := by
    rw [build_snoc]
    exact isReal_mergeNode _ _ _
  have grown := (grows_build (before ++ [.node relation.start isDefinition recordXmlid]) after).real
    _ merged
  rwa [List.append_assoc] at grown

theorem relationSteps_start {model : ModelInfo} {relation : Relation}
    (declared : Step.relate relation ∈ model.relationSteps) :
    relation.start = .model model.name (some model.module) := by
  rcases List.mem_append.mp declared with inherited | delegated
  · obtain ⟨parent, -, isRelation⟩ := List.mem_map.mp inherited
    cases isRelation
    split <;> rfl
  · obtain ⟨entry, -, isRelation⟩ := List.mem_map.mp delegated
    cases isRelation
    rfl

theorem placed_record (record : XmlRecord) : Placed record.steps := by
  cases record with
  | view xmlid inheritXmlid | qweb xmlid recordXmlid inheritXmlid =>
      refine @Placed.nodes_then [_] _ (Placed.of_nodes (by simp)) ?_
      intro relation declared
      obtain ⟨base, -, isRelation⟩ := List.mem_map.mp declared
      cases isRelation
      exact ⟨_, _, List.mem_singleton.mpr rfl⟩

theorem placed_patch (patch : PatchInfo) : Placed patch.steps := by
  refine @Placed.nodes_then [_] [_] (Placed.of_nodes (by simp)) ?_
  intro relation declared
  cases List.mem_singleton.mp declared
  exact ⟨_, _, List.mem_singleton.mpr rfl⟩

theorem placed_result (result : Result) : Placed result.steps := by
  cases result with
  | orm models =>
      refine Placed.nodes_then (Placed.of_nodes (by simp [ModelInfo.nodeStep])) ?_
      intro relation declared
      obtain ⟨model, modelIn, inSteps⟩ := List.mem_flatMap.mp declared
      rw [relationSteps_start inSteps]
      exact ⟨_, _, List.mem_map.mpr ⟨model, modelIn, rfl⟩⟩
  | xml records => exact Placed.flatMap fun record _ => placed_record record
  | js comps patches =>
      exact (Placed.of_nodes (by simp)).append (Placed.flatMap fun patch _ => placed_patch patch)
  | bundle name => exact Placed.of_nodes (by simp [Result.steps])

/-- The writers never write a placeholder's key as a node of their own. -/
theorem module_of_node {result : Result} {isDefinition : Bool} {recordXmlid : Option String}
    (written : Step.node key isDefinition recordXmlid ∈ result.steps) :
    ∀ name, key ≠ .model name none ∧ key ≠ .owlComp name none := by
  intro name
  cases result with
  | orm models =>
      rcases List.mem_append.mp written with inNodes | inRelations
      · obtain ⟨model, -, isNode⟩ := List.mem_map.mp inNodes
        cases isNode
        exact ⟨nofun, nofun⟩
      · obtain ⟨model, -, inSteps⟩ := List.mem_flatMap.mp inRelations
        simp [ModelInfo.relationSteps] at inSteps
  | xml records =>
      obtain ⟨record, -, inSteps⟩ := List.mem_flatMap.mp written
      cases record <;> simp [XmlRecord.steps] at inSteps <;> rw [inSteps.1] <;>
        exact ⟨nofun, nofun⟩
  | js comps patches =>
      rcases List.mem_append.mp written with inComps | inPatches
      · obtain ⟨comp, -, isNode⟩ := List.mem_map.mp inComps
        cases isNode
        exact ⟨nofun, nofun⟩
      · obtain ⟨patch, -, inSteps⟩ := List.mem_flatMap.mp inPatches
        simp [PatchInfo.steps] at inSteps
        rw [inSteps.1]
        exact ⟨nofun, nofun⟩
  | bundle name =>
      cases List.mem_singleton.mp written
      exact ⟨nofun, nofun⟩

theorem parent_of_inherits {result : Result} {model owner parent : String}
    (declared : Step.relate (.inherits model owner parent) ∈ result.steps) : parent ≠ model := by
  cases result with
  | orm models =>
      rcases List.mem_append.mp declared with inNodes | inRelations
      · obtain ⟨info, -, isNode⟩ := List.mem_map.mp inNodes
        cases isNode
      · obtain ⟨info, -, inSteps⟩ := List.mem_flatMap.mp inRelations
        rcases List.mem_append.mp inSteps with inherited | delegated
        · obtain ⟨name, -, isRelation⟩ := List.mem_map.mp inherited
          rw [Step.relate.injEq] at isRelation
          split at isRelation
          · cases isRelation
          · cases isRelation
            assumption
        · obtain ⟨entry, -, isRelation⟩ := List.mem_map.mp delegated
          cases isRelation
  | xml records =>
      obtain ⟨record, -, inSteps⟩ := List.mem_flatMap.mp declared
      cases record <;> simp [XmlRecord.steps] at inSteps
  | js comps patches =>
      rcases List.mem_append.mp declared with inComps | inPatches
      · obtain ⟨comp, -, isNode⟩ := List.mem_map.mp inComps
        cases isNode
      · obtain ⟨patch, -, inSteps⟩ := List.mem_flatMap.mp inPatches
        simp [PatchInfo.steps] at inSteps
  | bundle name => cases List.mem_singleton.mp declared

theorem proper_results (results : List Result) : Proper (results.flatMap Result.steps) := by
  have written : ∀ key, isReal (build (results.flatMap Result.steps)) key = true →
      ∀ name, key ≠ .model name none ∧ key ≠ .owlComp name none := by
    intro key real
    obtain ⟨isDefinition, recordXmlid, node⟩ := node_of_real _ real
    obtain ⟨result, -, inSteps⟩ := List.mem_flatMap.mp node
    exact module_of_node inSteps
  refine ⟨?_, ?_, ?_, ?_⟩
  · intro relation found writtenAt
    exact (Placed.flatMap fun result _ => placed_result result).real writtenAt
  · intro name
    by_contra real
    exact (written _ (eq_true_of_ne_false real) name).1 rfl
  · intro name
    by_contra real
    exact (written _ (eq_true_of_ne_false real) name).2 rfl
  · intro model owner parent declared
    obtain ⟨result, -, inSteps⟩ := List.mem_flatMap.mp declared
    exact parent_of_inherits inSteps

/-- Which declared relations with a real target survive the relink and the GC. -/
theorem relation_kept_iff (results : List Result) (relation : Relation)
    (declared : Step.relate relation ∈ results.flatMap Result.steps)
    (target : ∃ key, accepts (build (results.flatMap Result.steps)) relation key = true) :
    Kept (relinkThenGc (build (results.flatMap Result.steps))) relation ↔
      Settled (results.flatMap Result.steps) relation :=
  ⟨settled_of_kept (proper_results results), kept_of_settled (proper_results results) declared target⟩

end Results

/-- `sale` is written before `mail`, whose mixin it inherits. -/
def saleThenMail : List Result :=
  [.orm [⟨"sale.order", "sale", true, ["mail.thread"], []⟩],
    .orm [⟨"mail.thread", "mail", true, [], []⟩]]

theorem sale_keeps_mixin : Kept (relinkThenGc (build (saleThenMail.flatMap Result.steps)))
    (.inherits "sale.order" "sale" "mail.thread") :=
  (relation_kept_iff saleThenMail (.inherits "sale.order" "sale" "mail.thread") (by decide)
    ⟨.model "mail.thread" (some "mail"), by decide +kernel⟩).mpr trivial

/-- A patch of `web_enterprise` is written before the component of `web`. -/
def patchThenComp : List Result :=
  [.js [] [⟨"FormController", "expand", "web_enterprise"⟩], .js [("FormController", "web")] []]

/-- The patched component is there in the end, but the patch has no edge left. -/
theorem patch_loses_component :
    Step.relate (.patches "FormController" "expand" "web_enterprise") ∈
        patchThenComp.flatMap Result.steps ∧
      (∃ key, accepts (build (patchThenComp.flatMap Result.steps))
        (.patches "FormController" "expand" "web_enterprise") key = true) ∧
      ¬ Kept (relinkThenGc (build (patchThenComp.flatMap Result.steps)))
        (.patches "FormController" "expand" "web_enterprise") := by
  have noEdge : (relinkThenGc (build (patchThenComp.flatMap Result.steps))).edges = [] := by
    decide +kernel
  refine ⟨by decide, ⟨.owlComp "FormController" (some "web"), by decide +kernel⟩, ?_⟩
  rintro ⟨key, edge, -⟩
  rw [noEdge] at edge
  cases edge

def templateThenView : List Result :=
  [.xml [.qweb "viin_brand.tour" none (some "account.tour")], .xml [.view "account.tour" none]]

example : (relinkThenGc (build (templateThenView.flatMap Result.steps))).edges = [] := by
  decide +kernel

theorem isUnresolved_relinkThenGc (graph : Graph) (key : NodeKey) :
    isUnresolved (relinkThenGc graph) key = false := by
  cases found : (relinkThenGc graph).node key with
  | none => simp [isUnresolved, found]
  | some node =>
      have resolved := (Option.filter_eq_some_iff.mp found).2
      simpa [isUnresolved, found] using resolved

theorem relinkThenGc_resolved {graph : Graph} (resolved : ∀ key, isUnresolved graph key = false) :
    relinkThenGc graph = graph := by
  have stays : ∀ edge : Edge, relinkEdge graph edge = edge := by
    intro edge
    have nothing : relinkTargets graph edge = [] := by simp [relinkTargets, resolved]
    simp [relinkEdge, nothing, pick]
  have relinked : relinkUnresolvedPlaceholders graph = graph := by
    have edges : graph.edges.map (relinkEdge graph) = graph.edges :=
      (List.map_congr_left fun edge _ => stays edge).trans (List.map_id _)
    rw [relinkUnresolvedPlaceholders, edges]
  have nodes : ∀ key, (graph.node key).filter (fun node => !node.unresolved) = graph.node key := by
    intro key
    have known := resolved key
    cases found : graph.node key with
    | none => rfl
    | some node => simpa [isUnresolved, found, Option.filter] using known
  rw [relinkThenGc, relinked, gcUnresolvedPlaceholders]
  simp only [resolved, nodes, Bool.not_false, Bool.and_self, List.filter_true]

theorem accepts_relinked {graph : Graph} {relation : Relation} {finish : NodeKey}
    (other : relation.kind ≠ .extendsTmpl) (placeholder : relation.placeholder = some finish)
    {edge : Edge} (isEdge : edge = ⟨relation.kind, relation.start, finish⟩)
    (written : (relinkEdge graph edge).finish = edge.finish → isReal graph edge.finish = true) :
    accepts graph relation (relinkEdge graph edge).finish = true := by
  rcases @relinkEdge_finish graph edge with same | moved
  · have real := written same
    rw [same]
    subst isEdge
    cases relation <;> cases placeholder <;>
      first | exact absurd rfl other | simpa [accepts] using real
  · subst isEdge
    have both : isUnresolved graph finish = true ∧ isReal graph relation.start = true := by
      unfold relinkTargets at moved
      split at moved
      · cases moved
      · rename_i moves
        simpa using moves
    cases finish with
    | model parent module =>
        cases module with
        | none =>
            obtain ⟨-, ⟨module, isModel⟩, real, -⟩ :=
              (mem_relinkTargets_model placeholder both.1 both.2).mp moved
            exact (accepts_model_iff placeholder).mpr ⟨⟨some module, isModel⟩, real⟩
        | some module => cases relation <;> cases placeholder
    | _ =>
        cases relation <;> cases placeholder <;>
          first | exact absurd rfl other | simp [relinkTargets, Relation.kind] at moved

/-- The pass leaves no placeholder, and only edges that a write declared: each starts at the node
that declares it and, unless a template or a bundle is extended, ends at a node that the
relation's lookup accepts.  A second pass changes nothing. -/
theorem relinkThenGc_settles (results : List Result) :
    let graph := relinkThenGc (build (results.flatMap Result.steps))
    relinkThenGc graph = graph ∧ (∀ key, isUnresolved graph key = false) ∧
      ∀ edge ∈ graph.edges, ∃ relation, Step.relate relation ∈ results.flatMap Result.steps ∧
        edge.start = relation.start ∧ isReal graph edge.start = true ∧
          (edge.kind = .extendsAssetBundle ∨ edge.kind = relation.kind ∧
            (relation.kind = .extendsTmpl ∨ accepts graph relation edge.finish = true)) := by
  intro graph
  have resolved := isUnresolved_relinkThenGc (build (results.flatMap Result.steps))
  refine ⟨relinkThenGc_resolved resolved, resolved, fun edge edgeIn => ?_⟩
  obtain ⟨inRelinked, kept⟩ := List.mem_filter.mp edgeIn
  obtain ⟨old, oldIn, rfl⟩ := List.mem_map.mp inRelinked
  obtain ⟨relation, found, written, left⟩ := edge_origin _ oldIn
  have start := (proper_results results).start written
  refine ⟨relation, written.mem, left.start, ?_, ?_⟩
  · rw [isReal_relinkThenGc]
    exact left.start ▸ start.2
  · by_cases template : relation.kind = .extendsTmpl
    · rcases left.finish with ⟨-, same⟩ | ⟨-, -, -, same⟩ | bundle
      · exact Or.inr ⟨same, Or.inl template⟩
      · exact Or.inr ⟨same, Or.inl template⟩
      · exact Or.inl bundle
    · have sound := sound_build (results.flatMap Result.steps)
      rcases left.finish with ⟨target, same⟩ | ⟨nothing, noBundle, placeholder, same⟩ | bundle
      · have accepted := accepts_grows written.grows.2.1 template (accepts_of_target target)
        refine Or.inr ⟨same, Or.inr ((accepts_relinkThenGc sound relation _).mpr ?_)⟩
        rwa [relinkEdge_of_target written target]
      · refine Or.inr ⟨same, Or.inr ((accepts_relinkThenGc sound relation _).mpr ?_)⟩
        have isOld : old = ⟨relation.kind, relation.start, old.finish⟩ := by
          rw [← same, ← left.start]
        refine accepts_relinked template placeholder isOld fun stays => ?_
        refine (placeholder_present written start.1 nothing noBundle placeholder).resolve_right ?_
        intro unresolved
        rw [Bool.and_eq_true, stays] at kept
        have gone : isUnresolved (build (results.flatMap Result.steps)) old.finish = false :=
          (Bool.not_eq_true' _).mp kept.2
        rw [gone] at unresolved
        cases unresolved
      · exact Or.inl bundle

end OdooSemantic.Neo4j.Placeholders
