import Mathlib.Data.List.Basic

/-!
# Stateful actions that may raise

The effects an action had before it raised stay: there is no transaction around
it.  `Establishes` is the rule for what an action may do to the state, whatever
its outcome, for a relation that is reflexive and transitive.
-/

set_option autoImplicit false

namespace OdooSemantic.Lib

abbrev Action (State Err Out : Type) := State → Except Err Out × State

namespace Action

section Combinators
variable {State Outer Err Out Next Item Point : Type}

def done (out : Out) : Action State Err Out := fun state => (.ok out, state)

def raise (error : Err) : Action State Err Out := fun state => (.error error, state)

def update (change : State → State) : Action State Err Unit := fun state => (.ok (), change state)

def commit (write : State → Except Err State) : Action State Err Unit := fun state =>
  match write state with
  | .ok next => (.ok (), next)
  | .error error => (.error error, state)

def andThen (first : Action State Err Out) (next : Out → Action State Err Next) :
    Action State Err Next := fun state =>
  match first state with
  | (.ok out, state) => next out state
  | (.error error, state) => (.error error, state)

def reading (next : State → Action State Err Out) : Action State Err Out := fun state =>
  next state state

def forEach (body : Item → Action State Err Unit) : List Item → Action State Err Unit
  | [] => done ()
  | item :: rest => andThen (body item) fun _ => forEach body rest

/-- `try … except`. -/
def recover (body : Action State Err Out) (handler : Err → Action State Err Out) :
    Action State Err Out := fun state =>
  match body state with
  | (.ok out, state) => (.ok out, state)
  | (.error error, state) => handler error state

structure Raised (Point Err : Type) where
  point : Point
  message : Err
  transient : Bool

def retrying (body : Option Point → Action State Err Out) :
    Nat → List (Raised Point Err) → Action State Err Out
  | _, [] => body none
  | left, raised :: rest => fun state =>
      match body (some raised.point) state with
      | (.ok out, state) => (.ok out, state)
      | (.error _, state) =>
          if left ≤ 1 || !raised.transient then (.error raised.message, state)
          else retrying body (left - 1) rest state

end Combinators

section Rules
variable {State Err Out Next Item Point : Type}

def Meets (pre : State → Prop) (action : Action State Err Out)
    (post : Except Err Out → State → Prop) : Prop :=
  ∀ state, pre state → post (action state).1 (action state).2

def Keeps (inv : State → Prop) (action : Action State Err Out) : Prop :=
  ∀ state, inv state → inv (action state).2

theorem meets_andThen {pre : State → Prop} {mid : Except Err Out → State → Prop}
    {post : Except Err Next → State → Prop} (first : Action State Err Out)
    (next : Out → Action State Err Next) (head : Meets pre first mid)
    (tail : ∀ out, Meets (mid (.ok out)) (next out) post)
    (raised : ∀ error state, mid (.error error) state → post (.error error) state) :
    Meets pre (andThen first next) post := by
  intro state holds
  have reached := head state holds
  unfold andThen
  cases ran : first state with
  | mk result after =>
      rw [ran] at reached
      cases result with
      | error error => exact raised error after reached
      | ok out => exact tail out after reached

variable {inv : State → Prop}

theorem keeps_done (out : Out) : Keeps inv (done out : Action State Err Out) :=
  fun _ holds => holds

theorem keeps_raise (error : Err) : Keeps inv (raise error : Action State Err Out) :=
  fun _ holds => holds

theorem keeps_commit (write : State → Except Err State)
    (writes : ∀ state next, inv state → write state = .ok next → inv next) :
    Keeps inv (commit write) := by
  intro state holds
  unfold commit
  cases ran : write state with
  | error error => exact holds
  | ok next => exact writes state next holds ran

theorem keeps_reading (next : State → Action State Err Out)
    (each : ∀ state, inv state → Keeps inv (next state)) : Keeps inv (reading next) :=
  fun state holds => each state holds state holds

theorem meets_reading {pre : State → Prop} {post : Except Err Out → State → Prop}
    (next : State → Action State Err Out)
    (each : ∀ state, pre state → Meets (fun current => current = state) (next state) post) :
    Meets pre (reading next) post :=
  fun state holds => each state holds state rfl

theorem keeps_andThen (first : Action State Err Out) (next : Out → Action State Err Next)
    (head : Keeps inv first) (tail : ∀ out, Keeps inv (next out)) :
    Keeps inv (andThen first next) :=
  @meets_andThen _ _ _ _ inv (fun _ state => inv state) (fun _ state => inv state) first next
    head tail fun _ _ holds => holds

theorem keeps_forEach (body : Item → Action State Err Unit) (items : List Item)
    (each : ∀ item ∈ items, Keeps inv (body item)) : Keeps inv (forEach body items) := by
  induction items with
  | nil => exact keeps_done ()
  | cons item rest ih =>
      have restEach := ih fun other member => each other (List.mem_cons_of_mem item member)
      exact keeps_andThen (body item) _ (each item List.mem_cons_self) fun _ => restEach

theorem meets_recover {pre : State → Prop} {mid post : Except Err Out → State → Prop}
    (body : Action State Err Out) (handler : Err → Action State Err Out) (head : Meets pre body mid)
    (returned : ∀ out state, mid (.ok out) state → post (.ok out) state)
    (tail : ∀ error, Meets (mid (.error error)) (handler error) post) :
    Meets pre (recover body handler) post := by
  intro state holds
  have reached := head state holds
  unfold recover
  cases ran : body state with
  | mk result after =>
      rw [ran] at reached
      cases result with
      | error error => exact tail error after reached
      | ok out => exact returned out after reached

theorem keeps_recover (body : Action State Err Out) (handler : Err → Action State Err Out)
    (head : Keeps inv body) (tail : ∀ error, Keeps inv (handler error)) :
    Keeps inv (recover body handler) :=
  @meets_recover _ _ _ inv (fun _ state => inv state) (fun _ state => inv state) body handler
    head (fun _ _ holds => holds) tail

theorem keeps_and {other : State → Prop} {action : Action State Err Out}
    (one : Keeps inv action) (two : Keeps other action) :
    Keeps (fun state => inv state ∧ other state) action :=
  fun state both => ⟨one state both.1, two state both.2⟩

theorem keeps_retrying (body : Option Point → Action State Err Out)
    (each : ∀ point, Keeps inv (body point)) (raises : List (Raised Point Err)) :
    ∀ left, Keeps inv (retrying body left raises) := by
  induction raises with
  | nil => intro left; exact each none
  | cons raised rest ih =>
      intro left state holds
      have reached := each (some raised.point) state holds
      unfold retrying
      cases ran : body (some raised.point) state with
      | mk result after =>
          rw [ran] at reached
          cases result with
          | ok out => exact reached
          | error error =>
              simp only
              split
              · exact reached
              · exact ih (left - 1) after reached

end Rules

section Loops
variable {State Err Out Next Item Point : Type}

theorem andThen_assoc {Last : Type} (first : Action State Err Out)
    (second : Out → Action State Err Next) (third : Next → Action State Err Last) :
    andThen (andThen first second) third =
      andThen first fun out => andThen (second out) third := by
  funext state
  simp only [andThen]
  cases first state with
  | mk result after => cases result <;> rfl

theorem forEach_append (body : Item → Action State Err Unit) (first rest : List Item) :
    forEach body (first ++ rest) = andThen (forEach body first) fun _ => forEach body rest := by
  induction first with
  | nil => rfl
  | cons item others ih => rw [List.cons_append, forEach, ih, forEach, andThen_assoc]

def Returns (action : Action State Err Out) : Prop :=
  ∀ state, ∃ out, (action state).1 = .ok out

def Raises (action : Action State Err Out) : Prop :=
  ∀ state, ∃ error, (action state).1 = .error error

theorem returns_done (out : Out) : Returns (done out : Action State Err Out) :=
  fun _ => ⟨out, rfl⟩

theorem returns_andThen (first : Action State Err Out) (next : Out → Action State Err Next)
    (head : Returns first) (tail : ∀ out, Returns (next out)) :
    Returns (andThen first next) := by
  intro state
  obtain ⟨out, ran⟩ := head state
  obtain ⟨last, ran'⟩ := tail out (first state).2
  refine ⟨last, ?_⟩
  unfold andThen
  cases whole : first state with
  | mk result after =>
      rw [whole] at ran ran'
      simp only at ran
      subst ran
      exact ran'

theorem returns_forEach (body : Item → Action State Err Unit) (items : List Item)
    (each : ∀ item ∈ items, Returns (body item)) : Returns (forEach body items) := by
  induction items with
  | nil => exact returns_done ()
  | cons item rest ih =>
      have others := ih fun other member => each other (List.mem_cons_of_mem item member)
      exact returns_andThen (body item) _ (each item List.mem_cons_self) fun _ => others

theorem returns_recover (body : Action State Err Out) (handler : Err → Action State Err Out)
    (rescued : ∀ error, Returns (handler error)) : Returns (recover body handler) := by
  intro state
  unfold recover
  cases body state with
  | mk result after =>
      cases result with
      | ok out => exact ⟨out, rfl⟩
      | error error => exact rescued error after

theorem raises_andThen_left (first : Action State Err Out) (next : Out → Action State Err Next)
    (head : Raises first) : Raises (andThen first next) := by
  intro state
  obtain ⟨error, ran⟩ := head state
  refine ⟨error, ?_⟩
  unfold andThen
  cases whole : first state with
  | mk result after =>
      rw [whole] at ran
      simp only at ran
      subst ran
      rfl

theorem raises_andThen_right (first : Action State Err Out) (next : Out → Action State Err Next)
    (tail : ∀ out, Raises (next out)) : Raises (andThen first next) := by
  intro state
  unfold andThen
  cases first state with
  | mk result after =>
      cases result with
      | ok out => exact tail out after
      | error error => exact ⟨error, rfl⟩

theorem raises_forEach (body : Item → Action State Err Unit) (items : List Item) (item : Item)
    (member : item ∈ items) (one : Raises (body item)) : Raises (forEach body items) := by
  induction items with
  | nil => cases member
  | cons first rest ih =>
      rcases List.mem_cons.mp member with rfl | inRest
      · exact raises_andThen_left (body item) _ one
      · exact raises_andThen_right (body first) _ fun _ => ih inRest

def Succeeds (inv : State → Prop) (action : Action State Err Out) : Prop :=
  Meets inv action fun result state => (∃ out, result = .ok out) ∧ inv state

theorem Succeeds.meets_andThen {inv : State → Prop} {post : Except Err Next → State → Prop}
    {first : Action State Err Out} {next : Out → Action State Err Next}
    (head : Succeeds inv first) (tail : ∀ out, Meets inv (next out) post) :
    Meets inv (andThen first next) post := by
  intro state holds
  obtain ⟨⟨out, isOk⟩, kept⟩ := head state holds
  have rest := tail out _ kept
  unfold andThen
  cases ran : first state with
  | mk result after =>
      rw [ran] at isOk rest
      simp only at isOk
      subst isOk
      exact rest

theorem succeeds_andThen {inv : State → Prop} (first : Action State Err Out)
    (next : Out → Action State Err Next) (head : Succeeds inv first)
    (tail : ∀ out, Succeeds inv (next out)) : Succeeds inv (andThen first next) :=
  head.meets_andThen tail

theorem succeeds_reading {inv : State → Prop} (next : State → Action State Err Out)
    (each : ∀ state, inv state → Succeeds inv (next state)) : Succeeds inv (reading next) :=
  fun state holds => each state holds state holds

theorem Succeeds.beside {inv other : State → Prop} {action : Action State Err Out}
    (succeeds : Succeeds inv action) (keeps : Keeps other action) :
    Succeeds (fun state => inv state ∧ other state) action := by
  intro state both
  have reached := succeeds state both.1
  exact ⟨reached.1, reached.2, keeps state both.2⟩

theorem succeeds_forEach {inv : State → Prop} (body : Item → Action State Err Unit)
    (items : List Item) (each : ∀ item ∈ items, Succeeds inv (body item)) :
    Succeeds inv (forEach body items) := by
  induction items with
  | nil => exact fun _ holds => ⟨⟨(), rfl⟩, holds⟩
  | cons item rest ih =>
      have others := ih fun other member => each other (List.mem_cons_of_mem item member)
      exact succeeds_andThen (body item) _ (each item List.mem_cons_self) fun _ => others

theorem succeeds_of {inv : State → Prop} {action : Action State Err Out} (keeps : Keeps inv action)
    (returns : Returns action) : Succeeds inv action :=
  fun state holds => ⟨returns state, keeps state holds⟩

theorem meets_forEach_at {inv post : State → Prop} (body : Item → Action State Err Unit)
    (earlier : List Item) (item : Item) (later : List Item)
    (before : ∀ other ∈ earlier, Succeeds inv (body other))
    (reached : Meets inv (body item) fun _ => post)
    (after : ∀ other ∈ later, Keeps post (body other)) :
    Meets inv (forEach body (earlier ++ item :: later)) fun _ => post := by
  rw [forEach_append]
  have rest : Meets inv (forEach body (item :: later)) fun _ => post := by
    apply @meets_andThen _ _ _ _ _ (fun _ => post) (fun _ => post)
    · exact reached
    · exact fun _ => keeps_forEach body later after
    · exact fun _ _ holds => holds
  exact (succeeds_forEach body earlier before).meets_andThen fun _ => rest

/-- The retries end with an attempt that meets no fault. -/
def settled : Nat → List (Raised Point Err) → Bool
  | _, [] => true
  | left, raised :: rest => left > 1 && raised.transient && settled (left - 1) rest

theorem retrying_reaches {pre : State → Prop} {post : Except Err Out → State → Prop}
    (body : Option Point → Action State Err Out)
    (clean : Meets pre (body none) post)
    (faulty : ∀ point state, pre state →
      (∃ out, (body (some point) state).1 = .ok out ∧
        post (.ok out) (body (some point) state).2) ∨
      (∃ error, (body (some point) state).1 = .error error ∧
        pre (body (some point) state).2))
    (failed : ∀ message state, pre state → post (.error message) state)
    (raises : List (Raised Point Err)) :
    ∀ left, Meets pre (retrying body left raises) post := by
  induction raises with
  | nil => intro left; exact clean
  | cons raised rest ih =>
      intro left state holds
      have attempt := faulty raised.point state holds
      unfold retrying
      cases ran : body (some raised.point) state with
      | mk result after =>
          rw [ran] at attempt
          rcases attempt with ⟨out, isOk, reached⟩ | ⟨error, isError, open'⟩
          · simp only at isOk
            subst isOk
            exact reached
          · simp only at isError
            subst isError
            simp only
            split
            · exact failed raised.message after open'
            · exact ih (left - 1) after open'

theorem retrying_returns (body : Option Point → Action State Err Out)
    (clean : Returns (body none)) (raises : List (Raised Point Err)) :
    ∀ left, settled left raises = true → Returns (retrying body left raises) := by
  induction raises with
  | nil => intro left _; exact clean
  | cons raised rest ih =>
      intro left ends state
      simp only [settled, Bool.and_eq_true, decide_eq_true_eq] at ends
      unfold retrying
      cases body (some raised.point) state with
      | mk result after =>
          cases result with
          | ok out => exact ⟨out, rfl⟩
          | error error =>
              have again : ¬ (left ≤ 1 || !raised.transient) = true := by
                simp [ends.1.2]
                omega
              simp only
              rw [if_neg again]
              exact ih (left - 1) ends.2 after

end Loops

end Action

end OdooSemantic.Lib
