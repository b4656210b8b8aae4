import Mathlib.Tactic.Linarith
import OdooSemantic.Lib.Run
import OdooSemantic.Lib.SlidingWindow

/-!
# Requests of a key in a minute

`_check_rate_limit` keeps, for each key, a deque of the stamps of its accepted requests and
drops the ones older than a minute when the key asks again.  A plan on the `unlimited` slug
passes beside the deque, so the deque can be behind when the plan changes.
-/

set_option autoImplicit false

namespace OdooSemantic.Mcp.RateLimits

open Lib.Run Lib.SlidingWindow

structure PlanInfo where
  planId : Nat
  slug : String
  quotaCallsPerMonth : Int
  rateLimitRpm : Int
  rateLimitOverride : Option Int
  quotaOverride : Option Int

def PlanInfo.unlimited (plan : PlanInfo) : Bool := plan.slug == "unlimited"

def resolveEffectiveRpm (plan : PlanInfo) : Int × Bool :=
  if plan.unlimited then (0, true)
  else
    match plan.rateLimitOverride with
    | some rpm => (rpm, false)
    | none => (plan.rateLimitRpm, false)

/-- `now - stamp > 60.0`. -/
def minute : Window ℚ where
  out now stamp := decide (60 < now - stamp)
  stays := by
    intro now later stamp after isOut
    simp only [decide_eq_true_eq] at isOut ⊢
    linarith
  older := by
    intro now stamp other before isOut
    simp only [decide_eq_true_eq] at isOut ⊢
    linarith

/-- `_rate_buckets`: a key without an entry has the empty deque. -/
abbrev Buckets := Nat → List ℚ

/-- The answer is whether the request may pass and how many are left. -/
def checkRateLimit (buckets : Buckets) (apiKeyId : Nat) (plan : PlanInfo) (now : ℚ) :
    Buckets × (Bool × Int) :=
  let (effectiveRpm, isUnlimited) := resolveEffectiveRpm plan
  if isUnlimited then (buckets, (true, 0))
  else
    let bucket := minute.evict now (buckets apiKeyId)
    let remaining := max 0 (effectiveRpm - bucket.length)
    if effectiveRpm ≤ bucket.length then
      (Function.update buckets apiKeyId bucket, (false, 0))
    else (Function.update buckets apiKeyId (bucket ++ [now]), (true, remaining - 1))

structure Request where
  apiKeyId : Nat
  plan : PlanInfo
  now : ℚ

/-- `answered` are the requests so far, each with whether it passed. -/
structure State where
  buckets : Buckets
  answered : List (Request × Bool)

def noRequests : State := ⟨fun _ => [], []⟩

def answer (state : State) (request : Request) : Bool × Int :=
  (checkRateLimit state.buckets request.apiKeyId request.plan request.now).2

def step (state : State) (request : Request) : State where
  buckets := (checkRateLimit state.buckets request.apiKeyId request.plan request.now).1
  answered := state.answered ++ [(request, (answer state request).1)]

/-- The clock does not go back. -/
def Timely (requests : List Request) : Prop :=
  requests.Pairwise fun earlier later => earlier.now ≤ later.now

def counts (apiKeyId : Nat) (entry : Request × Bool) : Bool :=
  entry.1.apiKeyId == apiKeyId && !entry.1.plan.unlimited && entry.2

def stamps (apiKeyId : Nat) (answered : List (Request × Bool)) : List ℚ :=
  (answered.filter (counts apiKeyId)).map fun entry => entry.1.now

def inLastMinute (apiKeyId : Nat) (now : ℚ) (answered : List (Request × Bool)) :
    List (Request × Bool) :=
  answered.filter fun entry => counts apiKeyId entry && decide (now - entry.1.now ≤ 60)

theorem inside_stamps (apiKeyId : Nat) (now : ℚ) (answered : List (Request × Bool)) :
    (minute.inside now (stamps apiKeyId answered)).length =
      (inLastMinute apiKeyId now answered).length := by
  rw [stamps, Window.inside, List.filter_map, List.length_map, List.filter_filter, inLastMinute]
  congr 2
  funext entry
  rw [Bool.and_comm]
  congr 1
  simp only [minute, Function.comp_apply, ← decide_not, not_lt]

theorem stamps_snoc (apiKeyId : Nat) (answered : List (Request × Bool)) (entry : Request × Bool) :
    stamps apiKeyId (answered ++ [entry]) =
      stamps apiKeyId answered ++ if counts apiKeyId entry then [entry.1.now] else [] := by
  rw [stamps, List.filter_append, List.map_append, stamps, List.filter_singleton]
  cases counts apiKeyId entry <;> rfl

structure Tracks (state : State) (since : ℚ) : Prop where
  ordered : ∀ apiKeyId, Chronological (state.buckets apiKeyId)
  past : ∀ apiKeyId, ∀ stamp ∈ state.buckets apiKeyId, stamp ≤ since
  shown : ∀ apiKeyId,
    Shows minute (stamps apiKeyId state.answered) (state.buckets apiKeyId) since

theorem noRequests_tracks (since : ℚ) : Tracks noRequests since :=
  ⟨fun _ => List.Pairwise.nil, fun _ _ listed => (by cases listed), fun _ => Shows.refl _ _ _⟩

section Requests
variable {state : State} {since : ℚ} {request : Request}

theorem Tracks.later (tracks : Tracks state since) {next : ℚ} (after : since ≤ next) :
    Tracks state next :=
  ⟨tracks.ordered, fun apiKeyId stamp listed => le_trans (tracks.past apiKeyId stamp listed) after,
    fun apiKeyId => (tracks.shown apiKeyId).later after⟩

theorem check_unlimited (isUnlimited : request.plan.unlimited = true) :
    checkRateLimit state.buckets request.apiKeyId request.plan request.now =
      (state.buckets, (true, 0)) := by
  rw [checkRateLimit, resolveEffectiveRpm, if_pos isUnlimited]
  rfl

def PlanInfo.effectiveRpm (plan : PlanInfo) : Int := plan.rateLimitOverride.getD plan.rateLimitRpm

theorem check_limited (limited : request.plan.unlimited = false) :
    checkRateLimit state.buckets request.apiKeyId request.plan request.now =
      let bucket := minute.evict request.now (state.buckets request.apiKeyId)
      if request.plan.effectiveRpm ≤ bucket.length then
        (Function.update state.buckets request.apiKeyId bucket, (false, 0))
      else (Function.update state.buckets request.apiKeyId (bucket ++ [request.now]),
        (true, max 0 (request.plan.effectiveRpm - bucket.length) - 1)) := by
  have resolved : resolveEffectiveRpm request.plan = (request.plan.effectiveRpm, false) := by
    rw [resolveEffectiveRpm, limited, PlanInfo.effectiveRpm]
    cases request.plan.rateLimitOverride <;> rfl
  rw [checkRateLimit, resolved]
  rfl

theorem Tracks.seen (tracks : Tracks state since) (after : since ≤ request.now) :
    (minute.evict request.now (state.buckets request.apiKeyId)).length =
      (inLastMinute request.apiKeyId request.now state.answered).length := by
  rw [(tracks.shown request.apiKeyId).evicted (tracks.ordered request.apiKeyId) after,
    inside_stamps]

theorem Tracks.answer (tracks : Tracks state since) (after : since ≤ request.now)
    (limited : request.plan.unlimited = false) :
    answer state request =
      let count := (inLastMinute request.apiKeyId request.now state.answered).length
      if request.plan.effectiveRpm ≤ count then (false, 0)
      else (true, request.plan.effectiveRpm - count - 1) := by
  rw [RateLimits.answer, check_limited limited, ← tracks.seen after]
  generalize minute.evict request.now (state.buckets request.apiKeyId) = bucket
  dsimp only
  split
  · rfl
  · rename_i below
    rw [max_eq_right (by omega)]

theorem Tracks.written (tracks : Tracks state since) (after : since ≤ request.now)
    {bucket : List ℚ} {entry : Request × Bool} (isEntry : entry.1 = request)
    (written : bucket = minute.evict request.now (state.buckets request.apiKeyId) ++
      if counts request.apiKeyId entry then [request.now] else []) :
    Tracks ⟨Function.update state.buckets request.apiKeyId bucket, state.answered ++ [entry]⟩
      request.now := by
  have old := tracks.later after
  have kept := (tracks.ordered request.apiKeyId).evict minute request.now
  have keptPast : ∀ stamp ∈ minute.evict request.now (state.buckets request.apiKeyId),
      stamp ≤ request.now := fun stamp listed =>
    old.past request.apiKeyId stamp ((evict_suffix ..).mem listed)
  have keptShown := (tracks.shown request.apiKeyId).evict (tracks.ordered request.apiKeyId) after
    fun stamp isOut => isOut
  have untouched : ∀ other, other ≠ request.apiKeyId →
      stamps other (state.answered ++ [entry]) = stamps other state.answered := by
    intro other apart
    have skips : counts other entry = false := by
      rw [counts, isEntry, beq_false_of_ne (Ne.symm apart)]
      rfl
    rw [stamps_snoc, skips, if_neg Bool.false_ne_true, List.append_nil]
  have ordered : ∀ other, Chronological
      (Function.update state.buckets request.apiKeyId bucket other) := by
    intro other
    by_cases same : other = request.apiKeyId
    · rw [same, Function.update_self, written]
      split
      · exact kept.snoc keptPast
      · rwa [List.append_nil]
    · rw [Function.update_of_ne same]
      exact old.ordered other
  have past : ∀ other, ∀ stamp ∈ Function.update state.buckets request.apiKeyId bucket other,
      stamp ≤ request.now := by
    intro other stamp listed
    by_cases same : other = request.apiKeyId
    · rw [same, Function.update_self, written] at listed
      obtain earlier | new := List.mem_append.mp listed
      · exact keptPast stamp earlier
      · split at new
        · exact le_of_eq (List.mem_singleton.mp new)
        · cases new
    · rw [Function.update_of_ne same] at listed
      exact old.past other stamp listed
  have shown : ∀ other, Shows minute (stamps other (state.answered ++ [entry]))
      (Function.update state.buckets request.apiKeyId bucket other) request.now := by
    intro other
    by_cases same : other = request.apiKeyId
    · rw [same, Function.update_self, written, stamps_snoc, isEntry]
      split
      · exact keptShown.snoc request.now
      · rw [List.append_nil, List.append_nil]
        exact keptShown
    · rw [Function.update_of_ne same, untouched other same]
      exact old.shown other
  exact ⟨ordered, past, shown⟩

theorem Tracks.step (tracks : Tracks state since) (after : since ≤ request.now) :
    Tracks (step state request) request.now := by
  cases isUnlimited : request.plan.unlimited with
  | true =>
      have skips : ∀ apiKeyId passed, counts apiKeyId (request, passed) = false := by
        intro apiKeyId passed
        simp [counts, isUnlimited]
      rw [RateLimits.step, RateLimits.answer, check_unlimited isUnlimited]
      have old := tracks.later after
      refine ⟨old.ordered, old.past, fun apiKeyId => ?_⟩
      rw [stamps_snoc, skips, if_neg Bool.false_ne_true, List.append_nil]
      exact old.shown apiKeyId
  | false =>
      have counted : ∀ passed, counts request.apiKeyId (request, passed) = passed := by
        intro passed
        simp [counts, isUnlimited]
      rw [RateLimits.step, RateLimits.answer, check_limited isUnlimited]
      dsimp only
      split
      · refine tracks.written after rfl ?_
        rw [counted, if_neg Bool.false_ne_true, List.append_nil]
      · refine tracks.written after rfl ?_
        rw [counted, if_pos rfl]

end Requests

theorem tracks_run (requests : List Request) : Timely requests →
    ∀ since, (∀ request ∈ requests, request.now ≤ since) →
      Tracks (run step noRequests requests) since :=
  history_induction step noRequests
    (fun state events => Timely events → ∀ since, (∀ event ∈ events, event.now ≤ since) →
      Tracks state since)
    (fun _ since _ => noRequests_tracks since)
    (fun events event ih timely since before => by
      obtain ⟨earlier, -, ends⟩ := List.pairwise_append.mp timely
      have tracks := ih earlier event.now fun other listed =>
        ends other listed event (List.mem_singleton_self event)
      refine (tracks.step (le_refl event.now)).later (before event ?_)
      exact List.mem_append_right events (List.mem_singleton_self event))
    requests

/-- In every run with a clock that does not go back, a request passes exactly when its plan is
unlimited or fewer than its requests per minute of the same key passed as limited ones in the
last sixty seconds; an override of zero lets none pass. -/
theorem passes_iff (requests : List Request) (request : Request)
    (timely : Timely (requests ++ [request])) :
    let state := run step noRequests requests
    ((answer state request).1 = true ↔ request.plan.slug = "unlimited" ∨
        ((inLastMinute request.apiKeyId request.now state.answered).length : Int) <
          request.plan.rateLimitOverride.getD request.plan.rateLimitRpm) ∧
      (request.plan.slug ≠ "unlimited" → request.plan.rateLimitOverride = some 0 →
        answer state request = (false, 0)) := by
  intro state
  obtain ⟨earlier, -, ends⟩ := List.pairwise_append.mp timely
  have tracks : Tracks state request.now := tracks_run requests earlier request.now
    fun other listed => ends other listed request (List.mem_singleton_self request)
  have slug : request.plan.unlimited = true ↔ request.plan.slug = "unlimited" := beq_iff_eq
  cases isUnlimited : request.plan.unlimited with
  | true =>
      have named := slug.mp isUnlimited
      refine ⟨⟨fun _ => .inl named, fun _ => ?_⟩, fun other => absurd named other⟩
      rw [answer, check_unlimited isUnlimited]
  | false =>
      have unnamed : request.plan.slug ≠ "unlimited" := by
        intro named
        rw [slug.mpr named] at isUnlimited
        cases isUnlimited
      have answered := tracks.answer (le_refl request.now) isUnlimited
      rw [answered, PlanInfo.effectiveRpm]
      dsimp only
      refine ⟨?_, fun _ zero => ?_⟩
      · split
        · rename_i reached
          constructor
          · intro passed
            cases passed
          · intro either
            obtain named | below := either
            · exact absurd named unnamed
            · omega
        · rename_i below
          exact ⟨fun _ => .inr (by omega), fun _ => rfl⟩
      · rw [zero, Option.getD_some, if_pos (by omega)]

def freePlan : PlanInfo := ⟨1, "free", 1000, 2, none, none⟩

/-- The third request comes when the first is exactly a minute old, the fourth just after. -/
def boundaryRequests : List Request :=
  [⟨7, freePlan, 0⟩, ⟨7, { freePlan with slug := "unlimited" }, 5⟩, ⟨7, freePlan, 30⟩,
    ⟨7, freePlan, 60⟩]

theorem boundary_passes :
    (answer (run step noRequests boundaryRequests) ⟨7, freePlan, 121 / 2⟩).1 = true ∧
      ((run step noRequests boundaryRequests).answered.map Prod.snd) =
        [true, true, true, false] := by
  have passes := (passes_iff boundaryRequests ⟨7, freePlan, 121 / 2⟩
    (by simp only [Timely, boundaryRequests]; decide +kernel)).1
  exact ⟨passes.mpr (.inr (by decide +kernel)), by decide +kernel⟩

theorem Tracks.counted {state : State} {request : Request} {apiKeyId : Nat}
    (tracks : Tracks state request.now)
    (counted : counts apiKeyId (request, (RateLimits.answer state request).1) = true) :
    request.apiKeyId = apiKeyId ∧ request.plan.unlimited = false ∧
      ((inLastMinute apiKeyId request.now state.answered).length : Int) <
        request.plan.effectiveRpm := by
  simp only [counts, Bool.and_eq_true, beq_iff_eq, Bool.not_eq_true'] at counted
  obtain ⟨⟨rfl, limited⟩, passed⟩ := counted
  refine ⟨rfl, limited, ?_⟩
  rw [tracks.answer (le_refl _) limited] at passed
  dsimp only at passed
  split at passed
  · cases passed
  · omega

end OdooSemantic.Mcp.RateLimits
