import OdooSemantic.Lib.Search
import OdooSemantic.Prune.PyIndex

/-!
# The models the members of a class can be defined on

A class without an identity of its own has the models of its local bases; the members of a
class are also those of every local class that derives from it.
-/

set_option autoImplicit false

namespace OdooSemantic.Prune

open Lib.Closure Lib.Search

inductive MemberKind where
  | field
  | method

def PyClass.members (cls : PyClass) : MemberKind → List String
  | .field => cls.fieldNames
  | .method => cls.methodNames

section Families
variable (index : PyIndex)

def PyIndex.byName (name : String) : List PyClass := index.classes.filter (·.name == name)

def PyIndex.byPath (path : String) : List PyClass := index.classes.filter (·.path == path)

/-- `children`: a class is listed for each time it names the base. -/
def PyIndex.children (base : String) : List PyClass :=
  index.classes.flatMap fun cls => List.replicate (cls.bases.count base) cls

theorem mem_byName {name : String} {cls : PyClass} :
    cls ∈ index.byName name ↔ cls ∈ index.classes ∧ cls.name = name := by
  rw [PyIndex.byName, List.mem_filter, beq_iff_eq]

theorem mem_children {base : String} {cls : PyClass} :
    cls ∈ index.children base ↔ cls ∈ index.classes ∧ base ∈ cls.bases := by
  rw [PyIndex.children, List.mem_flatMap]
  constructor
  · intro given
    obtain ⟨other, listed, repeated⟩ := given
    obtain ⟨nonzero, same⟩ := List.mem_replicate.mp repeated
    rw [same]
    exact ⟨listed, List.count_pos_iff.mp (Nat.pos_of_ne_zero nonzero)⟩
  · intro given
    obtain ⟨listed, named⟩ := given
    exact ⟨cls, listed, List.mem_replicate.mpr ⟨(List.count_pos_iff.mpr named).ne', rfl⟩⟩

def PyIndex.parents : Lib.Search.Graph PyClass (String × Nat) where
  nodes := index.classes
  key := PyClass.key
  next cls := cls.bases.flatMap index.byName
  inside _ _ listed := by
    obtain ⟨base, -, named⟩ := List.mem_flatMap.mp listed
    exact ((mem_byName index).mp named).1

def PyIndex.offspring : Lib.Search.Graph PyClass (String × Nat) where
  nodes := index.classes
  key := PyClass.key
  next cls := index.children cls.name
  inside _ _ listed := ((mem_children index).mp listed).1

def PyIndex.identity (cls : PyClass) : Option (Option (List String)) :=
  if cls.hasMeta then some (ownModels index cls) else none

/-- `_up` with nothing seen. -/
def PyIndex.up (cls : PyClass) : Option (List String) :=
  (collect index.parents index.identity (index.classes.length + 1) [] cls).map Prod.snd

def PyIndex.effectiveModels (cls : PyClass) : Option (List String) :=
  gather index.offspring index.up (index.offspring.room [] [cls]) [] [cls]

def PyIndex.hasUnresolved : Bool :=
  index.textUnresolved || index.classes.any fun cls =>
    cls.hasMeta && (ownModels index cls).isNone

def PyIndex.declares (kind : MemberKind) (name model : String) (cls : PyClass) : Bool :=
  (cls.members kind).contains name &&
    match index.effectiveModels cls with
    | none => true
    | some models => models.contains model

/-- `path in self.trees`. -/
def PyIndex.inTrees (path : String) : Bool :=
  (index.file? path).isSome || index.unparsed.contains path

def PyIndex.memberPresent (kind : MemberKind) (name model : String) (files : List String) : Bool :=
  files.any fun path =>
    index.unparsed.contains path || !index.inTrees path ||
      (index.byPath path).any (index.declares kind name model)

def PyIndex.InFamily (cls member : PyClass) : Prop :=
  ∃ heir, Reached index.offspring.next (fun _ => True) ∅ [cls] heir ∧
    Reached index.parents.next (index.identity · = none) ∅ [heir] member

variable {index} {cls : PyClass} {models : List String} {model : String}

theorem identity_some {own : Option (List String)} (isOwn : index.identity cls = some own) :
    cls.hasMeta = true ∧ ownModels index cls = own := by
  rw [PyIndex.identity] at isOwn
  by_cases identified : cls.hasMeta = true
  · rw [if_pos identified] at isOwn
    exact ⟨identified, Option.some.inj isOwn⟩
  · rw [if_neg identified] at isOwn
    cases isOwn

theorem identity_none : index.identity cls = none ↔ cls.hasMeta = false := by
  rw [PyIndex.identity]
  cases cls.hasMeta <;> simp

theorem reached_listed {graph : Lib.Search.Graph PyClass (String × Nat)} {passable : PyClass → Prop}
    {node : PyClass} (listed : cls ∈ graph.nodes)
    (reached : Reached graph.next passable ∅ [cls] node) : node ∈ graph.nodes := by
  have inside : node ∈ {other | other ∈ graph.nodes} := by
    refine reached.inside (fun other isCls _ => ?_) fun other _ _ succ isNext _ =>
      graph.inside other succ isNext
    rw [List.mem_singleton.mp isCls]
    exact listed
  exact inside

theorem inFamily_listed {member : PyClass} (listed : cls ∈ index.classes)
    (inFamily : index.InFamily cls member) : member ∈ index.classes := by
  obtain ⟨heir, derived, reached⟩ := inFamily
  exact @reached_listed _ index.parents _ _ (@reached_listed _ index.offspring _ _ listed derived)
    reached

theorem effectiveModels_named (known : index.effectiveModels cls = some models)
    (listed : model ∈ models) : ∃ member names, index.InFamily cls member ∧
      member.hasMeta = true ∧ ownModels index member = some names ∧ model ∈ names := by
  have start : ∀ node ∈ [cls], Reached index.offspring.next (fun _ => True) ∅ [cls] node :=
    fun node isCls => .start isCls fun empty => empty
  obtain ⟨heir, names, derived, above, inNames⟩ := gather_mem start known listed
  obtain ⟨found, collected, same⟩ := Option.map_eq_some_iff.mp above
  rw [← same] at inNames
  obtain ⟨member, own, reached, isOwn, inOwn⟩ := collect_answers collected inNames
  obtain ⟨identified, given⟩ := identity_some isOwn
  exact ⟨member, own, ⟨heir, derived, reached⟩, identified, given, inOwn⟩

theorem effectiveModels_all (distinct : index.parents.Distinct) (listed : cls ∈ index.classes)
    (known : index.effectiveModels cls = some models) {member : PyClass}
    (inFamily : index.InFamily cls member) (identified : member.hasMeta = true) :
    ∃ names, ownModels index member = some names ∧ names ⊆ models := by
  obtain ⟨heir, derived, reached⟩ := inFamily
  have inClasses : ∀ node ∈ [cls], node ∈ index.classes := by
    intro node isCls
    rw [List.mem_singleton.mp isCls]
    exact listed
  have noneSeen : {other | index.offspring.key other ∈ ([] : List (String × Nat))} = ∅ := by
    ext other
    exact ⟨fun seen => absurd seen List.not_mem_nil, fun empty => absurd empty id⟩
  have heirIn : heir ∈ index.parents.nodes := @reached_listed _ index.offspring _ _ listed derived
  rw [← noneSeen] at derived
  have sameDistinct : index.offspring.Distinct := distinct
  obtain ⟨names, above, inModels⟩ := gather_complete sameDistinct inClasses known derived
  obtain ⟨found, collected, same⟩ := Option.map_eq_some_iff.mp above
  have isOwn : index.identity member = some (ownModels index member) := if_pos identified
  obtain ⟨own, given, inFound⟩ := collect_complete distinct heirIn collected reached isOwn
  rw [same] at inFound
  exact ⟨own, given, List.Subset.trans inFound inModels⟩

theorem up_room {left : Nat} (listed : cls ∈ index.classes) (room : index.classes.length < left) :
    index.up cls = (collect index.parents index.identity left [] cls).map Prod.snd := by
  rw [PyIndex.up, @collect_room _ _ _ _ index.parents _ _ _ listed room]
  rfl

theorem effectiveModels_room {left : Nat} (listed : cls ∈ index.classes)
    (room : index.offspring.room [] [cls] ≤ left) :
    index.effectiveModels cls = gather index.offspring index.up left [] [cls] := by
  rw [PyIndex.effectiveModels, gather_room _ room]
  intro node isCls
  rw [List.mem_singleton.mp isCls]
  exact listed

end Families

end OdooSemantic.Prune
