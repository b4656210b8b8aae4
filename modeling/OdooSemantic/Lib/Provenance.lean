import OdooSemantic.Lib.Run
import Mathlib.Data.List.Basic

/-!
# Items and the owners they come from

A store holds items and lists owners for them.  A step that brings an item in lists
its sources as owners; another step may take an owner off the list while the item
stays.  In every run a held item is owned by each of its sources, or has stood
unowned by that source since a step took it off.
-/

set_option autoImplicit false

namespace OdooSemantic.Lib.Provenance

open Lib.Run

section Provenance
variable {State Event Item Owner : Type} (step : State → Event → State) (start : State)
variable (holds : State → Item → Prop) (owns : State → Item → Owner → Prop)

def DepartedSince (events : List Event) (item : Item) (owner : Owner) : Prop :=
  ∃ earlier event later, events = earlier ++ event :: later ∧
    holds (run step start earlier) item ∧ owns (run step start earlier) item owner ∧
    ∀ middle rest, later = middle ++ rest →
      holds (run step start (earlier ++ event :: middle)) item ∧
        ¬ owns (run step start (earlier ++ event :: middle)) item owner

variable {step start holds owns}

theorem DepartedSince.here {events : List Event} {event : Event} {item : Item} {owner : Owner}
    (held : holds (run step start events) item) (owned : owns (run step start events) item owner)
    (stays : holds (run step start (events ++ [event])) item)
    (lost : ¬ owns (run step start (events ++ [event])) item owner) :
    DepartedSince step start holds owns (events ++ [event]) item owner := by
  refine ⟨events, event, [], rfl, held, owned, ?_⟩
  intro middle rest split
  have nothing : middle = [] := (List.append_eq_nil_iff.mp split.symm).1
  rw [nothing]
  exact ⟨stays, lost⟩

theorem DepartedSince.snoc {events : List Event} {item : Item} {owner : Owner}
    (departed : DepartedSince step start holds owns events item owner) {event : Event}
    (stays : holds (run step start (events ++ [event])) item)
    (unowned : ¬ owns (run step start (events ++ [event])) item owner) :
    DepartedSince step start holds owns (events ++ [event]) item owner := by
  obtain ⟨earlier, reset, later, rfl, held, owned, since⟩ := departed
  refine ⟨earlier, reset, later ++ [event], by simp, held, owned, ?_⟩
  intro middle rest split
  rcases List.eq_nil_or_concat rest with nothing | ⟨shorter, last, isRest⟩
  · rw [nothing, List.append_nil] at split
    rw [← split]
    simpa using And.intro stays unowned
  · rw [isRest, List.concat_eq_append, ← List.append_assoc] at split
    exact since middle shorter (List.append_inj' split rfl).1

end Provenance

end OdooSemantic.Lib.Provenance
