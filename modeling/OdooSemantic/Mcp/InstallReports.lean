import OdooSemantic.Mcp.InstallOrder

/-!
# The reports of an install set

A candidate the country gate holds back, or whose closure needs a module that is not
available, is reported and rejected.  Later rounds do not ask whether what they add was
reported.
-/

set_option autoImplicit false

namespace OdooSemantic.Mcp.InstallReports

open Lib.Closure Mcp.Install Mcp.InstallOrder

/-- A candidate for the country gate: its triggers are in the stage, one of them new. -/
def Gated (u : Universe) (baseline : Finset String) (stage : Set String) (m : ModuleRow) : Prop :=
  m ∈ u.modules ∧ m.available = true ∧ m.countries ≠ [] ∧ ∃ triggers, m.triggers = some triggers ∧
    (∀ trigger ∈ triggers, trigger ∈ stage) ∧ ∃ trigger ∈ triggers, trigger ∉ baseline

def HeldBack (u : Universe) (mode : Mode) (base : Finset String) (stage : Set String)
    (name : String) : Prop :=
  mode.countryGate = true ∧ name ∉ stage ∧ ∃ m, m.name = name ∧ Gated u base stage m

/-- The names of `country_conditional`. -/
def conditional (now : Progress) : List String := now.countryConditional.map Prod.fst

/-- The names of `unsatisfiable`. -/
def lacking (now : Progress) : List String := now.unsatisfiable.map Prod.fst

section Rounds
variable {u : Universe} {lookup : CandidateLookup u} {mode : Mode} {base : Finset String}
  {start : Set String} {now : Progress}

def ForGate (mode : Mode) (now : Progress) (row : Candidate) : Prop :=
  row.name ∉ now.installed ∧ (∀ trigger ∈ row.triggers, trigger ∈ now.installed) ∧
    (mode.requireNew = true → ∃ trigger ∈ row.triggers, trigger ∈ now.newly) ∧
    mode.countryGate = true ∧ row.countries ≠ []

theorem screen_reports (record : mode.record = true) (progress : Progress × List Candidate)
    (row : Candidate) :
    (screen mode progress row).1 = progress.1 ∨
      ForGate mode progress.1 row ∧ (screen mode progress row).1 =
        { progress.1 with
          rejected := insert row.name progress.1.rejected
          countryConditional :=
            progress.1.countryConditional ++ [(row.name, row.countries)] } := by
  obtain ⟨current, accepted⟩ := progress
  by_cases known : row.name ∈ current.installed ∨ row.name ∈ current.rejected
  · rw [screen, if_pos known]
    exact Or.inl rfl
  by_cases met : ∀ trigger ∈ row.triggers, trigger ∈ current.installed
  swap
  · rw [screen, if_neg known, if_pos met]
    exact Or.inl rfl
  by_cases old : mode.requireNew ∧ ¬ ∃ trigger ∈ row.triggers, trigger ∈ current.newly
  · rw [screen, if_neg known, if_neg (not_not.mpr met), if_pos old]
    exact Or.inl rfl
  by_cases gate : mode.countryGate ∧ row.countries ≠ []
  · rw [screen, if_neg known, if_neg (not_not.mpr met), if_neg old, if_pos gate, if_pos record]
    refine Or.inr ⟨⟨fun joined => known (Or.inl joined), met, fun required => ?_, gate⟩, rfl⟩
    by_contra none
    exact old ⟨required, none⟩
  · rw [screen, if_neg known, if_neg (not_not.mpr met), if_neg old, if_neg gate]
    exact Or.inl rfl

/-- What the first loop has reported up to here. -/
structure Reported (mode : Mode) (now : Progress) (rows : List Candidate) (after : Progress) :
    Prop where
  sets : after.installed = now.installed ∧ after.newly = now.newly
  told : ∀ name ∈ after.rejected, name ∈ now.rejected ∨ name ∈ conditional after
  kept : ∀ name ∈ conditional now, name ∈ conditional after
  source : ∀ name ∈ conditional after, name ∈ conditional now ∨
    ∃ row ∈ rows, row.name = name ∧ ForGate mode now row
  others : after.unsatisfiable = now.unsatisfiable

theorem Reported.next {rows : List Candidate} {progress : Progress × List Candidate}
    (record : mode.record = true) (done : Reported mode now rows progress.1) (row : Candidate) :
    Reported mode now (rows ++ [row]) (screen mode progress row).1 := by
  have wider : ∀ name ∈ conditional progress.1, name ∈ conditional now ∨
      ∃ other ∈ rows ++ [row], other.name = name ∧ ForGate mode now other := by
    intro name member
    rcases done.source name member with old | ⟨other, inRows, rest⟩
    · exact Or.inl old
    · exact Or.inr ⟨other, List.mem_append_left _ inRows, rest⟩
  rcases screen_reports record progress row with same | ⟨forGate, held⟩
  · rw [same]
    exact ⟨done.sets, done.told, done.kept, wider, done.others⟩
  · have names : conditional (screen mode progress row).1 =
        conditional progress.1 ++ [row.name] := by
      rw [held]
      exact List.map_append
    rw [ForGate, done.sets.1, done.sets.2] at forGate
    refine ⟨held ▸ done.sets, fun name member => ?_, fun name member => ?_,
      fun name member => ?_, held ▸ done.others⟩
    · rw [names, List.mem_append, List.mem_singleton]
      rw [held] at member
      rcases Finset.mem_insert.mp member with isRow | earlier
      · exact Or.inr (Or.inr isRow)
      · exact (done.told name earlier).imp_right Or.inl
    · rw [names]
      exact List.mem_append_left _ (done.kept name member)
    · rw [names, List.mem_append, List.mem_singleton] at member
      rcases member with earlier | isRow
      · exact wider name earlier
      · exact Or.inr ⟨row, by simp, isRow.symm, forGate⟩

theorem reported (record : mode.record = true) (now : Progress) (rows : List Candidate) :
    Reported mode now rows (rows.foldl (screen mode) (now, [])).1 := by
  induction rows using List.reverseRecOn with
  | nil => exact ⟨⟨rfl, rfl⟩, fun _ member => Or.inl member, fun _ member => member,
      fun _ member => Or.inl member, rfl⟩
  | append_singleton rows row ih =>
      rw [List.foldl_append, List.foldl_cons, List.foldl_nil]
      exact ih.next record row

/-- What the second loop has reported up to here. -/
structure Lacking (now : Progress) (rows : List Candidate) (after : Progress) : Prop where
  told : ∀ name ∈ after.rejected, name ∈ now.rejected ∨ name ∈ lacking after
  kept : ∀ name ∈ lacking now, name ∈ lacking after
  source : ∀ name ∈ lacking after, name ∈ lacking now ∨
    name ∈ after.rejected ∧ ∃ row ∈ rows, row.name = name
  others : after.countryConditional = now.countryConditional

theorem Lacking.next {rows : List Candidate} {progress : Progress × Finset String} {round : Nat}
    {acceptedNames : List String} (record : mode.record = true)
    (done : Lacking now rows progress.1) (row : Candidate) :
    Lacking now (rows ++ [row]) (admitRow u mode round acceptedNames progress row).1 := by
  obtain ⟨current, added⟩ := progress
  have wider : ∀ name ∈ lacking current, name ∈ lacking now ∨
      name ∈ current.rejected ∧ ∃ other ∈ rows ++ [row], other.name = name := by
    intro name member
    rcases done.source name member with old | ⟨isRejected, other, inRows, isName⟩
    · exact Or.inl old
    · exact Or.inr ⟨isRejected, other, List.mem_append_left _ inRows, isName⟩
  cases result : dependsClosure u (current.installed ∪ added) [row.name] with
  | mk closure missing =>
    simp only [admitRow, result, record, if_true]
    cases missing with
    | none => exact ⟨done.told, done.kept, wider, done.others⟩
    | some missing =>
        have names : lacking { current with
            rejected := insert row.name current.rejected
            unsatisfiable := current.unsatisfiable ++ [(row.name, missing)] } =
            lacking current ++ [row.name] := List.map_append
        refine ⟨fun name member => ?_, fun name member => ?_, fun name member => ?_, done.others⟩
        · rw [names, List.mem_append, List.mem_singleton]
          rcases Finset.mem_insert.mp member with isRow | earlier
          · exact Or.inr (Or.inr isRow)
          · exact (done.told name earlier).imp_right Or.inl
        · rw [names]
          exact List.mem_append_left _ (done.kept name member)
        · rw [names, List.mem_append, List.mem_singleton] at member
          rcases member with earlier | isRow
          · rcases wider name earlier with told | ⟨isRejected, other⟩
            · exact Or.inl told
            · exact Or.inr ⟨Finset.mem_insert_of_mem isRejected, other⟩
          · exact Or.inr ⟨isRow ▸ Finset.mem_insert_self _ _, row, by simp, isRow.symm⟩

theorem lacking_admitted (record : mode.record = true) (round : Nat) (acceptedNames : List String)
    (now : Progress) (rows : List Candidate) :
    Lacking now rows (rows.foldl (admitRow u mode round acceptedNames) (now, ∅)).1 := by
  induction rows using List.reverseRecOn with
  | nil => exact ⟨fun _ member => Or.inl member, fun _ member => member,
      fun _ member => Or.inl member, rfl⟩
  | append_singleton rows row ih =>
      rw [List.foldl_append, List.foldl_cons, List.foldl_nil]
      exact ih.next record row

theorem admitRow_given {rows : List Candidate} {progress : Progress × Finset String} {round : Nat}
    {acceptedNames : List String} {row : Candidate} {m : ModuleRow} {triggers : List String}
    (done : Admitted u mode base start now rows progress)
    (eligible : Eligible u mode base now row m triggers) {name : String}
    (joined : name ∈ (admitRow u mode round acceptedNames progress row).2) :
    name ∈ progress.2 ∨ ∃ rule,
      (installRules u base mode.requireNew mode.countryGate).fires (now.installed : Set String)
          rule ∧
        name ∈ (installRules u base mode.requireNew mode.countryGate).gives
          (now.installed : Set String) rule := by
  obtain ⟨current, added⟩ := progress
  have installed : current.installed = now.installed := done.installed
  obtain ⟨inClosure, allOpen, -⟩ := dependsClosure_spec u (now.installed ∪ added) [row.name]
  simp only [admitRow, installed] at joined
  cases result : dependsClosure u (now.installed ∪ added) [row.name] with
  | mk closure missing =>
    rw [result] at inClosure allOpen joined
    cases missing with
    | some missing => exact Or.inl joined
    | none =>
        rcases Finset.mem_union.mp joined with earlier | found
        · exact Or.inl earlier
        have given := ((inClosure name).mp (List.mem_toFinset.mp found)).1
        have past : (now.installed : Set String) ⊆ ((now.installed ∪ added : Finset String) :
            Set String) := Finset.coe_subset.mpr Finset.subset_union_left
        refine Or.inr ⟨m, ⟨eligible.shows.listed, eligible.shows.available, ⟨triggers,
          eligible.shows.auto, eligible.met, eligible.isNew⟩, eligible.gate, ?_⟩, ?_⟩
        · intro other reached
          by_contra isShut
          have blocked := blocked_iff.mpr ⟨other, reached, isShut⟩
          have still : Blocked u.deps u.Available
              ((now.installed : Set String) ∪ (added : Set String)) m.name := by
            refine blocked.grow done.opens fun node member dep isDep => ?_
            rw [← Finset.coe_union]
            exact done.complete node member dep isDep
          rw [← Finset.coe_union] at still
          obtain ⟨shut, found, shutOut⟩ := blocked_iff.mp still
          exact shutOut (allOpen rfl shut (eligible.shows.name ▸ found))
        · change Reached u.deps u.Available _ [m.name] name
          rw [← eligible.shows.name]
          exact given.mono past fun _ isStart => isStart

theorem admitted_given (round : Nat) (acceptedNames : List String) (rows : List Candidate)
    (sound : Sound u mode base start now)
    (eligible : ∀ row ∈ rows, ∃ m triggers, Eligible u mode base now row m triggers) :
    ∀ name ∈ (rows.foldl (admitRow u mode round acceptedNames) (now, ∅)).2, ∃ rule,
      (installRules u base mode.requireNew mode.countryGate).fires (now.installed : Set String)
          rule ∧
        name ∈ (installRules u base mode.requireNew mode.countryGate).gives
          (now.installed : Set String) rule := by
  induction rows using List.reverseRecOn with
  | nil => simp
  | append_singleton rows row ih =>
      have before := fun other member => eligible other (List.mem_append_left [row] member)
      obtain ⟨m, triggers, isEligible⟩ := eligible row (by simp)
      rw [List.foldl_append, List.foldl_cons, List.foldl_nil]
      intro name joined
      rcases admitRow_given (admitted round acceptedNames rows sound before) isEligible joined with
        earlier | given
      · exact ih before name earlier
      · exact given

variable (lookup) in
/-- A round of the code is a round of the rule: accepted rows join one after the other, but
no more and no less than all at once. -/
theorem turn_advance (round : Nat) (sound : Sound u mode base start now) :
    ((grown (turn lookup mode round now)).installed : Set String) =
      (installRules u base mode.requireNew mode.countryGate).advance
        (now.installed : Set String) := by
  have screened := screening_screened lookup mode now
  have admitting := turn_admitted lookup round sound
  have joined := turn_judged lookup round sound
  have given := admitted_given round ((screening lookup mode now).2.map Candidate.name)
    (screening lookup mode now).2 (screened.sound sound) (screened.eligible sound)
  change ∀ name ∈ (turn lookup mode round now).2, _ at given
  generalize turn lookup mode round now = after at admitting joined given
  have installed : (grown after).installed = now.installed ∪ after.2 := by
    rw [grown, admitting.installed, screened.installed]
  rw [screened.installed] at given
  have complete : ∀ name ∈ after.2, ∀ dep ∈ u.deps name, dep ∈ now.installed ∪ after.2 :=
    screened.installed ▸ admitting.complete
  have refused : ∀ name ∈ (grown after).rejected, Refused u mode base
      ((now.installed ∪ after.2 : Finset String) : Set String) name :=
    screened.installed ▸ admitting.refused
  rw [installed] at joined ⊢
  ext name
  rw [Finset.coe_union]
  constructor
  · rintro (old | new)
    · exact Or.inl old
    · exact Or.inr (given name new)
  · rintro (old | ⟨m, ⟨listedM, available, ⟨triggers, auto, met, isNew⟩, gate, opens⟩, reached⟩)
    · exact Or.inl old
    have outside : m.name ∉ now.installed := reached.origin
    have inside : m.name ∈ after.2 := by
      rcases joined m listedM available triggers auto met isNew with member | isRejected
      · exact (Finset.mem_union.mp member).resolve_left outside
      · exfalso
        rcases refused m.name isRejected m listedM rfl triggers auto with
          ⟨required, old⟩ | ⟨-, ⟨gated, some⟩ | blocked⟩
        · obtain ⟨trigger, member, fresh⟩ := isNew required
          exact fresh (old trigger member)
        · exact some (gate gated)
        · obtain ⟨shut, found, isShut⟩ := blocked_iff.mp blocked
          have earlier := found.mono (Finset.coe_subset.mpr Finset.subset_union_left)
            fun _ isStart => isStart
          exact isShut (opens shut earlier)
    refine Or.inr (Reached.inside ?_ ?_ reached)
    · intro other isStart _
      exact List.mem_singleton.mp isStart ▸ inside
    · intro other member _ dep isDep fresh
      exact (Finset.mem_union.mp (complete other member dep isDep)).resolve_left fresh

variable (u mode base start) in
/-- What holds between rounds of the reports and of the names that are rejected. -/
structure Told (before : Finset String) (turns : Nat) (now : Progress) : Prop where
  stage : (now.installed : Set String) =
    (installRules u base mode.requireNew mode.countryGate).round start turns
  told : ∀ name ∈ now.rejected,
    name ∈ before ∨ name ∈ conditional now ∨ name ∈ lacking now
  held : ∀ name ∈ conditional now, ∃ earlier ≤ turns, HeldBack u mode base
    ((installRules u base mode.requireNew mode.countryGate).round start earlier) name
  blocked : ∀ name ∈ lacking now, Blocked u.deps u.Available (now.installed : Set String) name

theorem ForGate.heldBack {row : Candidate} (gateIsNew : mode.countryGate = true →
      mode.requireNew = true) (sound : Sound u mode base start now)
    (inRows : row ∈ sortedRows lookup now) (forGate : ForGate mode now row) :
    HeldBack u mode base (now.installed : Set String) row.name := by
  obtain ⟨outside, met, isNew, gate, some⟩ := forGate
  obtain ⟨m, triggers, shows⟩ := shows_of_mem inRows
  obtain ⟨trigger, member, new⟩ := isNew (gateIsNew gate)
  refine ⟨gate, outside, m, shows.name.symm, shows.listed, shows.available,
    fun none => some (shows.countries.mpr none), triggers, shows.auto, fun other isTrigger => ?_,
    trigger, (shows.triggers trigger).mp member, ((sound.newly trigger).mp new).2⟩
  exact met other ((shows.triggers other).mpr isTrigger)

variable (lookup) in
theorem Told.next {before : Finset String} {turns : Nat} (record : mode.record = true)
    (gateIsNew : mode.countryGate = true → mode.requireNew = true) (round : Nat)
    (sound : Sound u mode base start now) (done : Told u mode base start before turns now) :
    Told u mode base start before (turns + 1) (grown (turn lookup mode round now)) := by
  have screened := screening_screened lookup mode now
  have eligible := screened.eligible sound
  have admitting := turn_admitted lookup round sound
  have advanced := turn_advance lookup round sound
  have first : Reported mode now (sortedRows lookup now) (screening lookup mode now).1 :=
    reported record now _
  have second : Lacking (screening lookup mode now).1 (screening lookup mode now).2
      (turn lookup mode round now).1 := lacking_admitted record round _ _ _
  generalize turn lookup mode round now = after at admitting advanced second
  have installed : (grown after).installed = now.installed ∪ after.2 := by
    rw [grown, admitting.installed, screened.installed]
  have conditionals : conditional (grown after) = conditional (screening lookup mode now).1 :=
    congrArg (List.map Prod.fst) second.others
  have lackings : lacking (screening lookup mode now).1 = lacking now :=
    congrArg (List.map Prod.fst) first.others
  refine ⟨?_, fun name member => ?_, fun name member => ?_, fun name member => ?_⟩
  · rw [advanced, done.stage]
    rfl
  · rcases second.told name member with earlier | isLacking
    · rw [conditionals]
      rcases first.told name earlier with old | isHeld
      · rcases done.told name old with isBefore | isHeld | isLacking
        · exact Or.inl isBefore
        · exact Or.inr (Or.inl (first.kept name isHeld))
        · exact Or.inr (Or.inr (second.kept name (lackings ▸ isLacking)))
      · exact Or.inr (Or.inl isHeld)
    · exact Or.inr (Or.inr isLacking)
  · rw [conditionals] at member
    rcases first.source name member with old | ⟨row, inRows, isName, forGate⟩
    · obtain ⟨earlier, within, held⟩ := done.held name old
      exact ⟨earlier, Nat.le_succ_of_le within, held⟩
    · refine ⟨turns, Nat.le_succ turns, ?_⟩
      rw [← isName, ← done.stage]
      exact forGate.heldBack gateIsNew sound inRows
  · rw [installed]
    rcases second.source name member with old | ⟨isRejected, row, isAccepted, isName⟩
    · rw [Finset.coe_union]
      refine (done.blocked name (lackings ▸ old)).grow admitting.opens fun other found dep isDep => ?_
      rw [← Finset.coe_union, ← screened.installed]
      exact admitting.complete other found dep isDep
    · obtain ⟨m, triggers, isEligible⟩ := eligible row isAccepted
      have isM : m.name = name := isEligible.shows.name.symm.trans isName
      rcases admitting.refused name isRejected m isEligible.shows.listed isM triggers
        isEligible.shows.auto with ⟨required, old⟩ | ⟨-, ⟨gated, some⟩ | blocked⟩
      · obtain ⟨trigger, isTrigger, fresh⟩ := isEligible.isNew required
        exact absurd (old trigger isTrigger) fresh
      · exact absurd (isEligible.gate gated) some
      · rwa [screened.installed] at blocked

variable (lookup) in
theorem Told.joins {before : Finset String} {turns : Nat} (record : mode.record = true)
    (round : Nat) (sound : Sound u mode base start now)
    (done : Told u mode base start before turns now) (rule : ModuleRow) (name : String)
    (fires : (installRules u base mode.requireNew mode.countryGate).fires
      (now.installed : Set String) rule)
    (given : name ∈ (installRules u base mode.requireNew mode.countryGate).gives
      (now.installed : Set String) rule)
    (held : HeldBack u mode base (now.installed : Set String) name) (unknown : name ∉ before) :
    name ∈ (grown (Install.turn lookup mode round now)).installed ∧
      name ∈ conditional (grown (Install.turn lookup mode round now)) := by
  have screened := screening_screened lookup mode now
  have advanced := turn_advance lookup round sound
  have first : Reported mode now (sortedRows lookup now) (screening lookup mode now).1 :=
    reported record now _
  have second : Lacking (screening lookup mode now).1 (screening lookup mode now).2
      (turn lookup mode round now).1 := lacking_admitted record round _ _ _
  have joined : name ∈ (installRules u base mode.requireNew mode.countryGate).advance
      (now.installed : Set String) := Or.inr ⟨rule, fires, given⟩
  rw [← advanced] at joined
  refine ⟨joined, ?_⟩
  have conditionals : conditional (grown (turn lookup mode round now)) =
      conditional (screening lookup mode now).1 := congrArg (List.map Prod.fst) second.others
  rw [conditionals]
  obtain ⟨gate, outside, m, rfl, listedM, available, some, triggers, auto, met, trigger, isTrigger,
    isNew⟩ := held
  -- it was rejected before, or its row is read in this round
  by_cases isRejected : m.name ∈ now.rejected
  · rcases done.told m.name isRejected with isBefore | isHeld | isLacking
    · exact absurd isBefore unknown
    · exact first.kept m.name isHeld
    · exfalso
      obtain ⟨shut, found, isShut⟩ :=
        blocked_iff.mp (Blocked.of_reached given (done.blocked m.name isLacking))
      exact isShut (fires.2.2.2.2 shut found)
  · obtain ⟨row, inRows, shows⟩ :=
      mem_of_eligible listedM available auto met outside isRejected
    rw [← shows.name]
    rcases screened.covered row inRows with was | refused | unmet | ⟨-, none⟩ | accepted
    · exact absurd (shows.name ▸ was) outside
    · rcases first.told row.name refused with old | isHeld
      · exact absurd (shows.name ▸ old) isRejected
      · exact isHeld
    · exact absurd (fun other member => met other ((shows.triggers other).mp member)) unmet
    · exact absurd ⟨trigger, (shows.triggers trigger).mpr isTrigger,
        (sound.newly trigger).mpr ⟨met trigger isTrigger, isNew⟩⟩ none
    · obtain ⟨-, -, -, -, isUngated⟩ := screened.accepted row accepted
      exact absurd (shows.countries.mp (isUngated gate)) some

structure Ended (u : Universe) (mode : Mode) (base : Finset String) (start : Set String)
    (before : Finset String) (turns left : Nat) (now final : Progress) : Prop where
  last : ∃ last ≤ turns + left, Told u mode base start before last final
  grows : now.installed ⊆ final.installed
  keeps : ∀ name ∈ conditional now, name ∈ conditional final
  joins : ∀ turn, turns ≤ turn → turn < turns + left → ∀ rule name,
    (installRules u base mode.requireNew mode.countryGate).fires
        ((installRules u base mode.requireNew mode.countryGate).round start turn) rule →
      name ∈ (installRules u base mode.requireNew mode.countryGate).gives
        ((installRules u base mode.requireNew mode.countryGate).round start turn) rule →
      HeldBack u mode base
        ((installRules u base mode.requireNew mode.countryGate).round start turn) name →
      name ∉ before → name ∈ final.installed ∧ name ∈ conditional final

variable (lookup) in
theorem fixpoint_ended (before : Finset String) (record : mode.record = true)
    (gateIsNew : mode.countryGate = true → mode.requireNew = true) (left : Nat) :
    ∀ (round turns : Nat) (now : Progress), Sound u mode base start now →
      Told u mode base start before turns now →
      Ended u mode base start before turns left now (fixpoint lookup mode left round now).1 := by
  induction left with
  | zero =>
      intro round turns now _ done
      refine ⟨⟨turns, Nat.le_refl _, done⟩, subset_rfl, fun _ member => member, ?_⟩
      intro turn low high
      omega
  | succ left ih =>
      intro round turns now sound done
      have next := done.next lookup record gateIsNew round sound
      have after := turn_sound lookup round sound
      have advanced := turn_advance lookup round sound
      have grows : now.installed ⊆ (grown (turn lookup mode round now)).installed := by
        rw [← Finset.coe_subset, advanced]
        exact Set.subset_union_left
      have keeps : ∀ name ∈ conditional now,
          name ∈ conditional (grown (turn lookup mode round now)) := by
        intro name member
        have first : Reported mode now (sortedRows lookup now) (screening lookup mode now).1 :=
          reported record now _
        have second : Lacking (screening lookup mode now).1 (screening lookup mode now).2
            (turn lookup mode round now).1 := lacking_admitted record round _ _ _
        have same : conditional (grown (turn lookup mode round now)) =
            conditional (screening lookup mode now).1 := congrArg (List.map Prod.fst) second.others
        rw [same]
        exact first.kept name member
      have joins := done.joins lookup record round sound
      rw [done.stage] at joins advanced
      rw [fixpoint_succ]
      by_cases nothing : (turn lookup mode round now).2 = ∅
      · rw [if_pos nothing]
        refine ⟨⟨turns + 1, by omega, next⟩, grows, keeps, ?_⟩
        intro turn low high rule name fires given held unknown
        rcases Nat.eq_or_lt_of_le low with rfl | later
        · exact joins rule name fires given held unknown
        · -- nothing changes any more, so no rule gives a new name
          exfalso
          have still : (installRules u base mode.requireNew mode.countryGate).advance
              ((installRules u base mode.requireNew mode.countryGate).round start turns) =
              (installRules u base mode.requireNew mode.countryGate).round start turns := by
            rw [← advanced, grown_nothing nothing, (turn_admitted lookup round sound).installed,
              (screening_screened lookup mode now).installed, done.stage]
          have same := round_still still low
          rw [same] at fires given held
          refine held.2.1 (still ▸ Or.inr ⟨rule, fires, given⟩)
      · rw [if_neg nothing]
        have rest := ih (round + 1) (turns + 1) _ after next
        obtain ⟨last, within, told⟩ := rest.last
        refine ⟨⟨last, by omega, told⟩, grows.trans rest.grows,
          fun name member => rest.keeps name (keeps name member), ?_⟩
        intro turn low high rule name fires given held unknown
        rcases Nat.eq_or_lt_of_le low with rfl | later
        · obtain ⟨joined, isHeld⟩ := joins rule name fires given held unknown
          exact ⟨rest.grows joined, rest.keeps name isHeld⟩
        · exact rest.joins turn later (by omega) rule name fires given held unknown

end Rounds

theorem Gated.mono {u : Universe} {baseline : Finset String} {stage later : Set String}
    {m : ModuleRow} (grows : stage ⊆ later) (gated : Gated u baseline stage m) :
    Gated u baseline later m := by
  obtain ⟨listedM, available, some, triggers, auto, met, isNew⟩ := gated
  exact ⟨listedM, available, some, triggers, auto,
    fun trigger member => grows (met trigger member), isNew⟩

/-- The reports are disjoint from the result exactly when, before every round the cap allows,
no rule that fires gives a module that is a candidate for the country gate at that time. -/
theorem resolveInstallSet_reports (u : Universe) (lookup : CandidateLookup u)
    (roots : List String) (maxRounds : Nat) (countryGate : Bool) (cached : Option Nat) :
    let baseline := startingBaseline lookup roots.eraseDups maxRounds
      (cached.map (computeBaseline lookup))
    let result := resolveInstallSet lookup roots maxRounds countryGate
      (cached.map (computeBaseline lookup))
    let rules := rulesOf u baseline.installed roots countryGate
    let start := installStart u baseline.installed roots
    (∀ name, name ∈ result.countryConditional.map Prod.fst ∨
        name ∈ result.unsatisfiable.map Prod.fst → name ∉ result.installed) ↔
      (countryGate = true → baselineRoot ∉ roots → ∀ turn < maxRounds, ∀ rule m,
        rules.fires (rules.round start turn) rule →
          m.name ∈ rules.gives (rules.round start turn) rule →
            ¬ Gated u baseline.installed (rules.round start turn) m) := by
  obtain ⟨carried, creation⟩ := startingBaseline_carried lookup roots.eraseDups maxRounds cached
  have same : ∀ name, name ∈ roots.eraseDups ↔ name ∈ roots := fun name => List.mem_eraseDups
  simp only [resolveInstallSet]
  generalize startingBaseline lookup roots.eraseDups maxRounds
    (cached.map (computeBaseline lookup)) = base at carried creation
  have sound := install_sound countryGate carried creation
  have start : installStart u base.installed roots =
      ((base.installed ∪ (dependsClosure u base.installed roots.eraseDups).1.toFinset :
        Finset String) : Set String) := by
    rw [installStart_eq carried.closed, dependsClosure_roots fun name => (same name).symm]
  simp only [same] at sound ⊢
  simp only [rulesOf, start]
  have ended := fixpoint_ended lookup base.rejected rfl (fun gate => ?_) maxRounds 1 0 _
    sound ⟨rfl, fun _ member => Or.inl member, by simp [conditional, Progress.initial],
      by simp [lacking, Progress.initial]⟩
  · generalize (fixpoint lookup _ maxRounds 1 _).1 = final at ended
    obtain ⟨last, within, told⟩ := ended.last
    constructor
    · intro disjoint gate notRoot turn high rule m fires given gated
      have unknown : m.name ∉ base.rejected := by
        intro isRejected
        obtain ⟨listedM, -, -, triggers, auto, -, trigger, isTrigger, isNew⟩ := gated
        exact isNew (carried.triggered m.name isRejected m listedM rfl triggers auto trigger isTrigger)
      have held : HeldBack u ⟨!decide (baselineRoot ∈ roots), true,
          countryGate && !decide (baselineRoot ∈ roots)⟩ base.installed _ m.name :=
        ⟨by simp [gate, notRoot], given.fresh, m, rfl, gated⟩
      obtain ⟨joined, isHeld⟩ :=
        ended.joins turn (Nat.zero_le _) (by omega) rule m.name fires given held unknown
      exact disjoint m.name (Or.inl isHeld) joined
    · intro never name reported joined
      rcases reported with isHeld | isLacking
      · obtain ⟨earlier, before, gate, outside, m, rfl, gated⟩ := told.held name isHeld
        have inside := Finset.mem_coe.mpr joined
        rw [told.stage] at inside
        obtain ⟨turn, low, high, rule, fires, given⟩ := round_entered before outside inside
        simp only [Bool.and_eq_true, Bool.not_eq_true', decide_eq_false_iff_not] at gate
        exact never gate.1 gate.2 turn (by omega) rule m fires given (gated.mono (round_mono low))
      · exact (told.blocked name isLacking).fresh joined
  · simp only [Bool.and_eq_true] at gate
    exact gate.2

def localized : Universe where
  modules := [⟨"base", true, [], none, []⟩, ⟨"account", true, ["base"], none, []⟩,
    ⟨"l10n_be", true, ["account"], some ["account"], ["be"]⟩,
    ⟨"l10n_be_reports", true, ["l10n_be"], some ["account"], []⟩]
  distinct := by decide

def localizedLookup : CandidateLookup localized where
  rows := localized.candidates
  lists _ _ := .refl _

/-- The localization is reported as conditional and joins with the module that needs it. -/
theorem localized_reported :
    let result := resolveInstallSet localizedLookup ["account"] 50 true none
    ¬ ∀ name, name ∈ result.countryConditional.map Prod.fst ∨
      name ∈ result.unsatisfiable.map Prod.fst → name ∉ result.installed := by
  intro result disjoint
  have both : "l10n_be" ∈ result.countryConditional.map Prod.fst ∧
      "l10n_be" ∈ result.installed := by decide +kernel
  exact disjoint "l10n_be" (Or.inl both.1) both.2

end OdooSemantic.Mcp.InstallReports
