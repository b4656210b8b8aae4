import Mathlib.Data.List.Induction

/-!
# Finite runs of a deterministic step function

Everything outside the modelled system (clocks, lookups, lock outcomes, the
order in which parties act) is carried by the events, so one step function and
a list of events describe one interleaving.  This file supplies the run, the
invariant rule, the rule for runs whose steps all meet a guard, counters over the
history of a run, and reads stamped with the changes committed before them.
-/

set_option autoImplicit false

namespace OdooSemantic.Lib.Run

section Run
variable {State Event : Type}

/-- The state reached from `start` by the events, oldest first. -/
def run (step : State → Event → State) (start : State) (events : List Event) : State :=
  events.foldl step start

@[simp] theorem run_nil (step : State → Event → State) (start : State) :
    run step start [] = start := rfl

@[simp] theorem run_cons (step : State → Event → State) (start : State) (event : Event)
    (rest : List Event) :
    run step start (event :: rest) = run step (step start event) rest := rfl

@[simp] theorem run_append (step : State → Event → State) (start : State)
    (earlier later : List Event) :
    run step start (earlier ++ later) = run step (run step start earlier) later := by
  simp [run]

theorem history_induction (step : State → Event → State) (start : State)
    (holds : State → List Event → Prop) (initial : holds start [])
    (advance : ∀ events event, holds (run step start events) events →
      holds (step (run step start events) event) (events ++ [event])) :
    ∀ events, holds (run step start events) events := by
  intro events
  induction events using List.reverseRecOn with
  | nil => exact initial
  | append_singleton events event ih =>
      rw [run_append]
      exact advance events event ih

theorem run_preserves (step : State → Event → State) (inv : State → Prop)
    (preserves : ∀ state event, inv state → inv (step state event))
    (start : State) (initial : inv start) (events : List Event) :
    inv (run step start events) :=
  history_induction step start (fun state _ => inv state) initial
    (fun events event reached => preserves (run step start events) event reached) events

theorem run_relates (step : State → Event → State) (related : State → State → Prop)
    (refl : ∀ state, related state state)
    (trans : ∀ first second third, related first second → related second third →
      related first third)
    (advance : ∀ state event, related state (step state event))
    (start : State) (events : List Event) :
    related start (run step start events) :=
  history_induction step start (fun state _ => related start state) (refl start)
    (fun events event reached =>
      trans start (run step start events) (step (run step start events) event) reached
        (advance (run step start events) event)) events

def AllSteps (step : State → Event → State) (guard : State → Event → Prop) :
    State → List Event → Prop
  | _, [] => True
  | state, event :: rest => guard state event ∧ AllSteps step guard (step state event) rest

instance AllSteps.decidable (step : State → Event → State) (guard : State → Event → Prop)
    [∀ state event, Decidable (guard state event)] :
    ∀ state events, Decidable (AllSteps step guard state events)
  | _, [] => instDecidableTrue
  | state, event :: rest =>
      @instDecidableAnd _ _ _ (AllSteps.decidable step guard (step state event) rest)

theorem allSteps_append (step : State → Event → State) (guard : State → Event → Prop)
    (start : State) (earlier later : List Event) :
    AllSteps step guard start (earlier ++ later) ↔
      AllSteps step guard start earlier ∧
        AllSteps step guard (run step start earlier) later := by
  induction earlier generalizing start with
  | nil => simp [AllSteps]
  | cons event rest ih => simp [AllSteps, ih, and_assoc]

theorem allSteps_of_splits (step : State → Event → State) (guard : State → Event → Prop) :
    ∀ (events : List Event) (start : State),
      (∀ earlier event later, events = earlier ++ event :: later →
        guard (run step start earlier) event) →
      AllSteps step guard start events := by
  intro events
  induction events with
  | nil => intro start _; trivial
  | cons event rest ih =>
      intro start meets
      refine ⟨meets [] event rest rfl, ih (step start event) ?_⟩
      intro earlier other later split
      have whole := meets (event :: earlier) other later (by rw [split, List.cons_append])
      rwa [run_cons] at whole

theorem run_preserves_guarded (step : State → Event → State)
    (guard : State → Event → Prop) (inv : State → Prop)
    (preserves : ∀ state event, guard state event → inv state → inv (step state event)) :
    ∀ (events : List Event) (start : State), AllSteps step guard start events →
      inv start → inv (run step start events) := by
  intro events
  induction events with
  | nil => intro start _ initial; exact initial
  | cons event rest ih =>
      intro start steps initial
      exact ih (step start event) steps.2 (preserves start event steps.1 initial)

theorem allSteps_of_guarded (step : State → Event → State) (guard goal : State → Event → Prop)
    (inv : State → Prop)
    (preserves : ∀ state event, guard state event → inv state → inv (step state event))
    (meets : ∀ state event, guard state event → inv state → goal state event) :
    ∀ (events : List Event) (start : State), AllSteps step guard start events →
      inv start → AllSteps step goal start events := by
  intro events
  induction events with
  | nil => intro start _ _; trivial
  | cons event rest ih =>
      intro start steps initial
      have reached := preserves start event steps.1 initial
      exact ⟨meets start event steps.1 initial, ih (step start event) steps.2 reached⟩

def HeldSince (step : State → Event → State) (start : State) (sets : State → Event → Prop)
    (holds : State → Prop) (events : List Event) : Prop :=
  ∃ earlier event later, events = earlier ++ event :: later ∧
    sets (run step start earlier) event ∧
      ∀ between, between <+: later → holds (run step start (earlier ++ event :: between))

section Held
variable {step : State → Event → State} {start : State} {sets : State → Event → Prop}
  {holds : State → Prop} {events : List Event} {event : Event}

theorem heldSince_set (isSet : sets (run step start events) event)
    (now : holds (run step start (events ++ [event]))) :
    HeldSince step start sets holds (events ++ [event]) := by
  refine ⟨events, event, [], rfl, isSet, fun between first => ?_⟩
  rw [List.prefix_nil.mp first]
  exact now

theorem heldSince_keep (held : HeldSince step start sets holds events)
    (now : holds (run step start (events ++ [event]))) :
    HeldSince step start sets holds (events ++ [event]) := by
  obtain ⟨earlier, setter, later, split, isSet, since⟩ := held
  have split' : events ++ [event] = earlier ++ setter :: (later ++ [event]) := by
    rw [split, List.append_assoc, List.cons_append]
  refine ⟨earlier, setter, later ++ [event], split', isSet, fun between first => ?_⟩
  obtain whole | before := List.prefix_concat_iff.mp first
  · rw [whole, ← split']
    exact now
  · exact since between before

theorem heldSince_before (held : HeldSince step start sets holds (events ++ [event]))
    (unset : ¬ sets (run step start events) event) : holds (run step start events) := by
  obtain ⟨earlier, setter, later, split, isSet, since⟩ := held
  cases later using List.reverseRecOn with
  | nil =>
      obtain ⟨same, sameEvent⟩ := List.append_inj' split rfl
      rw [← same, ← List.singleton_inj.mp sameEvent] at isSet
      exact absurd isSet unset
  | append_singleton front last =>
      have parts : events ++ [event] = (earlier ++ setter :: front) ++ [last] := by
        rw [split, List.append_assoc, List.cons_append]
      rw [(List.append_inj' parts rfl).1]
      exact since front (List.prefix_append front [last])

end Held

end Run

section Count
variable {State Event : Type}

/-- How many steps of the run go from a state to a state that `hit` relates. -/
def countSteps (step : State → Event → State) (hit : State → State → Bool) :
    State → List Event → Nat
  | _, [] => 0
  | state, event :: rest =>
      (hit state (step state event)).toNat +
        countSteps step hit (step state event) rest

theorem countSteps_snoc (step : State → Event → State) (hit : State → State → Bool)
    (start : State) (events : List Event) (event : Event) :
    countSteps step hit start (events ++ [event]) =
      countSteps step hit start events +
        (hit (run step start events) (step (run step start events) event)).toNat := by
  induction events generalizing start with
  | nil => simp [countSteps]
  | cons first rest ih =>
      simp only [List.cons_append, countSteps, run_cons, ih (step start first)]
      omega

end Count

/-- A value read from a store and how many changes were committed before. -/
structure Read (Value : Type) where
  value : Value
  at' : Nat
  deriving DecidableEq

def fresh {Value : Type} (changes : Nat) (read : Read Value) : Bool :=
  decide (changes ≤ read.at')

end OdooSemantic.Lib.Run
