import OdooSemantic.Mcp.KeyCache

/-!
# What an invalidation of a key reaches

The entries of the key that were read before a change are gone after an
invalidation, unless the key entry has no id, only the raw key is known, or a
request in flight writes back what it read before.
-/

set_option autoImplicit false

namespace OdooSemantic.Mcp.KeyInvalidation

open Lib.Run Mcp.KeyCache

/-- The invalidation leaves no entry from before the change: one by the raw key does not
reach the plan, one by the key's id needs the id in the key entry. -/
def clears (changes : Nat) (state : State) : Event → Bool
  | .invalidate => state.caches.plan.all fun entry => fresh changes entry.1
  | .invalidateByKeyId =>
      withRow state.caches.key || state.caches.answers.all (fresh changes)
  | _ => false

def writesFresh (changes : Nat) (state : State) : Event → Bool
  | .act thread _ _ =>
      match state.phase thread with
      | .planFetched _ plan _ => fresh changes plan
      | phase => phase.writes.all (fresh changes)
  | _ => true

structure Renewed (changes : Nat) (young : Nat → Prop) (state : State) : Prop where
  committed : changes ≤ state.changes
  caches : ∀ answer ∈ state.caches.answers, fresh changes answer = true
  plan : ∀ plan ts, state.caches.plan = some (plan, ts) → fresh changes plan = true
  answers : ∀ thread, young thread → ∀ answer ∈ (state.phase thread).answers,
    fresh changes answer = true
  plans : ∀ thread, young thread → ∀ plan ∈ (state.phase thread).plans, fresh changes plan = true

variable {changes : Nat} {young : Nat → Prop}

theorem fresh_reading {Value : Type} (state : State) (value : Value)
    (committed : changes ≤ state.changes) : fresh changes (state.reading value) = true :=
  decide_eq_true committed

theorem act_changes (state : State) (thread now : Nat) (fails : Bool) :
    (act state thread now fails).changes = state.changes := rfl

theorem Renewed.act {state : State} {thread now : Nat} {fails : Bool}
    (writes : writesFresh changes state (.act thread now fails) = true)
    (renewed : Renewed changes young state) :
    Renewed changes young (act state thread now fails) := by
  refine ⟨?_, ?_, ?_, ?_, ?_⟩
  · rw [act_changes]
    exact renewed.committed
  · intro answer member
    rcases advance_caches state now fails (state.phase thread) answer member with cached | written
    · exact renewed.caches answer cached
    · unfold writesFresh at writes
      simp only at writes
      split at writes
      · rename_i phase
        rw [phase] at written
        cases written
      · simpa [written] using writes
  · intro plan ts cached
    rcases advance_planEntry state now fails (state.phase thread) plan ts cached with
      held | ⟨identity, since, phase⟩
    · exact renewed.plan plan ts held
    · simpa [writesFresh, phase] using writes
  · intro other isYoung answer member
    by_cases acting : other = thread
    · subst acting
      simp only [KeyCache.act, Function.update_self] at member
      rcases advance_answers state now fails _ answer member with held | cached | read
      · exact renewed.answers other isYoung answer held
      · exact renewed.caches answer cached
      · exact read ▸ fresh_reading state _ renewed.committed
    · simp only [KeyCache.act, Function.update_of_ne acting] at member
      exact renewed.answers other isYoung answer member
  · intro other isYoung plan member
    by_cases acting : other = thread
    · subst acting
      simp only [KeyCache.act, Function.update_self] at member
      rcases advance_plans state now fails _ plan member with held | ⟨ts, cached⟩ | read
      · exact renewed.plans other isYoung plan held
      · exact renewed.plan plan ts cached
      · exact decide_eq_true (read ▸ renewed.committed)
    · simp only [KeyCache.act, Function.update_of_ne acting] at member
      exact renewed.plans other isYoung plan member

theorem Renewed.step {state : State} {event : Event}
    (writes : writesFresh changes state event = true) (renewed : Renewed changes young state) :
    Renewed changes young (step state event) := by
  cases event with
  | act thread now fails => exact renewed.act writes
  | start thread caller =>
      simp only [KeyCache.step]
      split
      · refine ⟨renewed.committed, renewed.caches, renewed.plan, ?_, ?_⟩
        · intro other isYoung answer member
          by_cases starting : other = thread
          · subst starting
            simp at member
          · simp only [Function.update_of_ne starting] at member
            exact renewed.answers other isYoung answer member
        · intro other isYoung plan member
          by_cases starting : other = thread
          · subst starting
            simp [Phase.plans] at member
          · simp only [Function.update_of_ne starting] at member
            exact renewed.plans other isYoung plan member
      · exact renewed
  | change data =>
      refine ⟨?_, renewed.caches, renewed.plan, renewed.answers, renewed.plans⟩
      have committed := renewed.committed
      simp only [State.changes, KeyCache.step, List.length_cons] at committed ⊢
      omega
  | invalidate =>
      exact ⟨renewed.committed, fun _ member => absurd member List.not_mem_nil, renewed.plan,
        renewed.answers, renewed.plans⟩
  | invalidateByKeyId =>
      refine ⟨renewed.committed, ?_, ?_, renewed.answers, renewed.plans⟩
      · exact fun answer member => renewed.caches answer
          (cacheInvalidateByKeyId_answers state.caches answer member)
      · intro plan ts cached
        cases cached

theorem renewed_of_clears (state : State) (invalidation : Event)
    (committed : changes ≤ state.changes) (cleared : clears changes state invalidation = true) :
    Renewed changes (fun thread => state.phase thread = .idle) (KeyCache.step state invalidation) := by
  have noAnswers : ∀ thread, state.phase thread = .idle → (state.phase thread).answers = [] := by
    intro thread isIdle
    rw [isIdle]
    rfl
  have noPlans : ∀ thread, state.phase thread = .idle → (state.phase thread).plans = [] := by
    intro thread isIdle
    rw [isIdle]
    rfl
  cases invalidation with
  | start thread caller | act thread now fails | change data => cases cleared
  | invalidate =>
      refine ⟨committed, fun _ member => absurd member List.not_mem_nil, ?_, ?_, ?_⟩
      · intro plan ts cached
        simp only [KeyCache.step, cacheInvalidate] at cached
        simpa [clears, cached] using cleared
      · intro thread isIdle answer member
        simp only [KeyCache.step, noAnswers thread isIdle] at member
        cases member
      · intro thread isIdle plan member
        simp only [KeyCache.step, noPlans thread isIdle] at member
        cases member
  | invalidateByKeyId =>
      refine ⟨committed, ?_, ?_, ?_, ?_⟩
      · intro answer member
        simp only [KeyCache.step] at member
        simp only [clears, Bool.or_eq_true, List.all_eq_true] at cleared
        rcases cleared with byId | allFresh
        · unfold cacheInvalidateByKeyId at member
          rw [if_pos byId] at member
          cases member
        · exact allFresh answer (cacheInvalidateByKeyId_answers state.caches answer member)
      · intro plan ts cached
        cases cached
      · intro thread isIdle answer member
        simp only [KeyCache.step, noAnswers thread isIdle] at member
        cases member
      · intro thread isIdle plan member
        simp only [KeyCache.step, noPlans thread isIdle] at member
        cases member

theorem changes_le_run (state : State) (events : List Event) :
    state.changes ≤ (run KeyCache.step state events).changes := by
  apply run_relates KeyCache.step (fun before after => before.changes ≤ after.changes)
  · exact fun state => Nat.le_refl _
  · exact fun _ _ _ => Nat.le_trans
  · intro state event
    cases event with
    | start thread caller =>
        simp only [KeyCache.step]
        split <;> exact Nat.le_refl _
    | act thread now fails | invalidate | invalidateByKeyId => exact Nat.le_refl _
    | change data => exact Nat.le_succ _

/-- After a change and an invalidation that clears what was read before it, and as long as
no request in flight writes such an answer back, a request that starts later is authorised
and rate-limited from data read after the change. -/
theorem invalidation_effective (start : State) (earlier between later : List Event) (data : KeyData)
    (invalidation : Event)
    (cleared : clears ((run step start earlier).changes + 1)
      (run step start (earlier ++ .change data :: between)) invalidation = true)
    (writes : AllSteps step
      (fun state event => writesFresh ((run step start earlier).changes + 1) state event = true)
      (step (run step start (earlier ++ .change data :: between)) invalidation) later)
    (thread : Nat)
    (starts : (run step start (earlier ++ .change data :: between)).phase thread = .idle) :
    (∀ answer ∈ ((run step start (earlier ++ .change data :: between ++ invalidation :: later)).phase
        thread).answers, (run step start earlier).changes + 1 ≤ answer.at') ∧
      ∀ plan ∈ ((run step start (earlier ++ .change data :: between ++ invalidation :: later)).phase
        thread).plans, (run step start earlier).changes + 1 ≤ plan.at' := by
  have committed : (run step start earlier).changes + 1 ≤
      (run step start (earlier ++ .change data :: between)).changes := by
    have later' := changes_le_run (step (run step start earlier) (.change data)) between
    rw [run_append, run_cons]
    exact later'
  have initial := renewed_of_clears _ invalidation committed cleared
  have final := run_preserves_guarded step _ _
    (fun state event guard => Renewed.step guard) later _ writes initial
  rw [run_append, run_cons]
  constructor
  · intro answer member
    exact of_decide_eq_true (final.answers thread starts answer member)
  · intro plan member
    exact of_decide_eq_true (final.plans thread starts plan member)

def servedBefore : List Event :=
  [.start 0 .middleware] ++ acts 0 10 10

def servedAfter : List Event :=
  [.start 1 .middleware] ++ acts 1 20 10

/-- A request that has read the row when the key is bound to tenant 5, and writes it after
the invalidation. -/
def readBefore : List Event :=
  [.start 0 .middleware] ++ acts 0 10 4

def writtenAfter : List Event :=
  acts 0 12 5 ++ [.start 1 .middleware] ++ acts 1 20 6

theorem served_after_fresh :
    ((run step (State.initial globalKey) (servedBefore ++ .change tenantKey :: [] ++
        .invalidateByKeyId :: servedAfter)).phase 1).answers ≠ [] ∧
      ∀ answer ∈ ((run step (State.initial globalKey) (servedBefore ++
        .change tenantKey :: [] ++ .invalidateByKeyId :: servedAfter)).phase 1).answers,
      (run step (State.initial globalKey) servedBefore).changes + 1 ≤ answer.at' := by
  have served : ((run step (State.initial globalKey) (servedBefore ++ .change tenantKey :: [] ++
      .invalidateByKeyId :: servedAfter)).phase 1).answers ≠ [] := by decide +kernel
  have cleared : clears ((run step (State.initial globalKey) servedBefore).changes + 1)
      (run step (State.initial globalKey) (servedBefore ++ .change tenantKey :: []))
      .invalidateByKeyId = true := by decide +kernel
  have writes : AllSteps step (fun state event => writesFresh
      ((run step (State.initial globalKey) servedBefore).changes + 1) state event = true)
      (step (run step (State.initial globalKey) (servedBefore ++ .change tenantKey :: []))
        .invalidateByKeyId) servedAfter := by decide +kernel
  have starts : (run step (State.initial globalKey) (servedBefore ++ .change tenantKey :: [])).phase
      1 = .idle := by decide +kernel
  exact ⟨served, (invalidation_effective (State.initial globalKey) servedBefore [] servedAfter
    tenantKey .invalidateByKeyId cleared writes 1 starts).1⟩

/-- A request that starts after the invalidation is served, without a tenant, from the row
another one read before the change to tenant 5. -/
theorem stale_write_serves_old_scope :
    (run step (State.initial globalKey) (readBefore ++ .change tenantKey :: [])).phase 1 = .idle ∧
      ∃ identity plan,
        (run step (State.initial globalKey) (readBefore ++ .change tenantKey :: [] ++
          .invalidateByKeyId :: writtenAfter)).phase 1 = .served identity plan ∧
        admitted identity = true ∧ tenantOf identity.tenant = none ∧
        (run step (State.initial globalKey) readBefore).changes + 1 = 1 ∧
        ∀ answer ∈ identity.answers, answer.at' = 0 := by
  refine ⟨by decide +kernel, ⟨some ⟨globalKey.row, 0⟩, some ⟨globalKey.row, 0⟩,
    some ⟨globalKey.row, 0⟩⟩, ?_⟩
  refine ⟨tenantKey.plan.map fun plan => ⟨plan, 1⟩, ?_⟩
  decide +kernel

end OdooSemantic.Mcp.KeyInvalidation
