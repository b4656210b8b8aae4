import Mathlib.Tactic.Linarith
import OdooSemantic.Lib.Run
import OdooSemantic.Lib.SlidingWindow

/-!
# Calls of the public endpoints from one address

`check_ip_rate_limit` keeps one deque of stamps for each address.  The endpoints share it, and
each call drops old stamps and prunes idle deques by its own window.
-/

set_option autoImplicit false

namespace OdooSemantic.WebUi.IpRateLimits

open Lib.Run Lib.SlidingWindow

/-- `now - stamp > window_seconds`. -/
def seconds (windowSeconds : ℚ) : Window ℚ where
  out now stamp := decide (windowSeconds < now - stamp)
  stays := by
    intro now later stamp after isOut
    simp only [decide_eq_true_eq] at isOut ⊢
    linarith
  older := by
    intro now stamp other before isOut
    simp only [decide_eq_true_eq] at isOut ⊢
    linarith

/-- `_per_ip_buckets`, where an address without an entry has the empty deque, and
`_last_prune`. -/
structure Buckets where
  stamps : String → List ℚ
  lastPrune : ℚ

/-- `not bucket or bucket[-1] < cutoff`. -/
def stale (cutoff : ℚ) (bucket : List ℚ) : Bool :=
  match bucket.getLast? with
  | none => true
  | some last => decide (last < cutoff)

def pruneStale (buckets : Buckets) (windowSeconds now : ℚ) : Buckets :=
  if now - buckets.lastPrune < 2 * windowSeconds then buckets
  else
    { stamps := fun clientIp =>
        if stale (now - 2 * windowSeconds) (buckets.stamps clientIp) then []
        else buckets.stamps clientIp
      lastPrune := now }

/-- A call by an endpoint; `_prune_stale` reads the clock again. -/
structure Call where
  endpoint : String
  clientIp : String
  limit : Int
  windowSeconds : ℚ
  now : ℚ
  pruneNow : ℚ

def checkIpRateLimit (buckets : Buckets) (call : Call) : Buckets × Bool :=
  let pruned := pruneStale buckets call.windowSeconds call.pruneNow
  let bucket := (seconds call.windowSeconds).evict call.now (pruned.stamps call.clientIp)
  if call.limit ≤ bucket.length then
    ({ pruned with stamps := Function.update pruned.stamps call.clientIp bucket }, false)
  else
    ({ pruned with stamps := Function.update pruned.stamps call.clientIp (bucket ++ [call.now]) },
      true)

/-- `answered` are the calls so far, each with whether it was allowed. -/
structure State where
  buckets : Buckets
  answered : List (Call × Bool)

def noCalls : State := ⟨⟨fun _ => [], 0⟩, []⟩

def allowed (state : State) (call : Call) : Bool := (checkIpRateLimit state.buckets call).2

def step (state : State) (call : Call) : State where
  buckets := (checkIpRateLimit state.buckets call).1
  answered := state.answered ++ [(call, allowed state call)]

/-- The clock does not go back. -/
def Timely (calls : List Call) : Prop :=
  (∀ call ∈ calls, call.now ≤ call.pruneNow) ∧
    calls.Pairwise fun earlier later => earlier.pruneNow ≤ later.now

def from' (clientIp : String) (answered : List (Call × Bool)) : List Call :=
  (answered.filter fun entry => entry.2 && entry.1.clientIp == clientIp).map Prod.fst

def State.fromAddress (state : State) (call : Call) : List Call :=
  (from' call.clientIp state.answered).filter fun earlier =>
    decide (call.now - earlier.now ≤ call.windowSeconds)

def State.ofEndpoint (state : State) (call : Call) : List Call :=
  (state.fromAddress call).filter fun earlier => earlier.endpoint == call.endpoint

def OwnLimit (state : State) (call : Call) : Prop :=
  allowed state call = true ↔ ((state.ofEndpoint call).length : Int) < call.limit

def Spares (call : Call) (clientIp : String) (windowSeconds : ℚ) : Prop :=
  (call.clientIp = clientIp → windowSeconds ≤ call.windowSeconds) ∧
    windowSeconds ≤ 2 * call.windowSeconds

def Undisturbed (state : State) (call : Call) : Prop :=
  (∀ entry ∈ state.answered, Spares entry.1 call.clientIp call.windowSeconds) ∧
    call.pruneNow - call.now ≤ call.windowSeconds ∧
    (((state.fromAddress call).length : Int) < call.limit ∨
      call.limit ≤ (state.ofEndpoint call).length)

section Deques
variable {state : State} {call : Call} {clientIp : String} {windowSeconds since now : ℚ}

def stampsOf (clientIp : String) (answered : List (Call × Bool)) : List ℚ :=
  (from' clientIp answered).map Call.now

theorem from_snoc (answered : List (Call × Bool)) (entry : Call × Bool) :
    from' clientIp (answered ++ [entry]) = from' clientIp answered ++
      if entry.2 && entry.1.clientIp == clientIp then [entry.1] else [] := by
  rw [from', List.filter_append, List.map_append, from', List.filter_singleton]
  cases entry.2 && entry.1.clientIp == clientIp <;> rfl

theorem stampsOf_snoc (answered : List (Call × Bool)) (entry : Call × Bool) :
    stampsOf clientIp (answered ++ [entry]) = stampsOf clientIp answered ++
      if entry.2 && entry.1.clientIp == clientIp then [entry.1.now] else [] := by
  rw [stampsOf, from_snoc, List.map_append, stampsOf]
  cases entry.2 && entry.1.clientIp == clientIp <;> rfl

theorem inside_stampsOf (state : State) (call : Call) :
    ((seconds call.windowSeconds).inside call.now
      (stampsOf call.clientIp state.answered)).length = (state.fromAddress call).length := by
  rw [stampsOf, Window.inside, List.filter_map, List.length_map, State.fromAddress]
  congr 2
  funext earlier
  simp only [seconds, Function.comp_apply, ← decide_not, not_lt]

/-- Every deque is in order and holds no stamp of the future, and the deque of the address
shows its calls in the window. -/
structure Tracks (clientIp : String) (windowSeconds : ℚ) (state : State) (since : ℚ) : Prop where
  ordered : ∀ other, Chronological (state.buckets.stamps other)
  past : ∀ other, ∀ stamp ∈ state.buckets.stamps other, stamp ≤ since
  shown : Shows (seconds windowSeconds) (stampsOf clientIp state.answered)
    (state.buckets.stamps clientIp) since

theorem stale_old {cutoff : ℚ} {bucket : List ℚ} (ordered : Chronological bucket)
    (isStale : stale cutoff bucket = true) : ∀ stamp ∈ bucket, stamp < cutoff := by
  induction bucket using List.reverseRecOn with
  | nil =>
      intro stamp listed
      cases listed
  | append_singleton front last ih =>
      simp only [stale, List.getLast?_concat, decide_eq_true_eq] at isStale
      obtain ⟨-, -, below⟩ := List.pairwise_append.mp ordered
      intro stamp listed
      obtain inFront | isLast := List.mem_append.mp listed
      · exact lt_of_le_of_lt (below stamp inFront last (List.mem_singleton_self last)) isStale
      · rw [List.mem_singleton.mp isLast]
        exact isStale

/-- Pruning leaves a deque or empties an old one. -/
theorem prune_cases (windowSeconds now : ℚ)
    (ordered : Chronological (state.buckets.stamps clientIp)) :
    (pruneStale state.buckets windowSeconds now).stamps clientIp = state.buckets.stamps clientIp ∨
      (pruneStale state.buckets windowSeconds now).stamps clientIp = [] ∧
        ∀ stamp ∈ state.buckets.stamps clientIp, stamp < now - 2 * windowSeconds := by
  unfold pruneStale
  split
  · exact .inl rfl
  · cases isStale : stale (now - 2 * windowSeconds) (state.buckets.stamps clientIp) with
    | true => exact .inr ⟨if_pos isStale, stale_old ordered isStale⟩
    | false => exact .inl (if_neg (by rw [isStale]; exact Bool.false_ne_true))

theorem prune_sublist (buckets : Buckets) (windowSeconds now : ℚ) (clientIp : String) :
    ((pruneStale buckets windowSeconds now).stamps clientIp).Sublist (buckets.stamps clientIp) := by
  unfold pruneStale
  split
  · exact List.Sublist.refl _
  · dsimp only
    split
    · exact List.nil_sublist _
    · exact List.Sublist.refl _

theorem Tracks.pruned (tracks : Tracks clientIp windowSeconds state since) {pruneWindow at' : ℚ}
    (after : since ≤ at')
    (beyond : ∀ stamp, stamp < now - 2 * pruneWindow → windowSeconds < at' - stamp) :
    Shows (seconds windowSeconds) (stampsOf clientIp state.answered)
      ((pruneStale state.buckets pruneWindow now).stamps clientIp) at' := by
  obtain same | ⟨empty, old⟩ := prune_cases pruneWindow now (tracks.ordered clientIp)
  · rw [same]
    exact tracks.shown.later after
  · have dropped : Shows (seconds windowSeconds) (stampsOf clientIp state.answered)
        ((state.buckets.stamps clientIp).filter
          fun stamp => !decide (stamp < now - 2 * pruneWindow)) at' :=
      tracks.shown.drop after fun stamp gone =>
        decide_eq_true (beyond stamp (of_decide_eq_true gone))
    have all : (state.buckets.stamps clientIp).filter
        (fun stamp => !decide (stamp < now - 2 * pruneWindow)) = [] := by
      refine List.filter_eq_nil_iff.mpr fun stamp listed => ?_
      rw [decide_eq_true (old stamp listed)]
      exact Bool.false_ne_true
    rw [all] at dropped
    rwa [empty]

def found (buckets : Buckets) (call : Call) : List ℚ :=
  (seconds call.windowSeconds).evict call.now
    ((pruneStale buckets call.windowSeconds call.pruneNow).stamps call.clientIp)

theorem allowed_iff (state : State) (call : Call) :
    allowed state call = true ↔ ((found state.buckets call).length : Int) < call.limit := by
  unfold allowed checkIpRateLimit
  dsimp only
  split
  · rename_i reached
    exact ⟨nofun, fun below => absurd reached (not_le.mpr below)⟩
  · rename_i below
    exact ⟨fun _ => not_le.mp below, fun _ => rfl⟩

theorem step_same (state : State) (call : Call) :
    (step state call).buckets.stamps call.clientIp =
      found state.buckets call ++ if allowed state call then [call.now] else [] := by
  unfold step allowed checkIpRateLimit
  dsimp only
  split
  · dsimp only
    rw [Function.update_self, if_neg Bool.false_ne_true, List.append_nil]
    rfl
  · dsimp only
    rw [Function.update_self, if_pos rfl]
    rfl

theorem step_other (state : State) (call : Call) (other : clientIp ≠ call.clientIp) :
    (step state call).buckets.stamps clientIp =
      (pruneStale state.buckets call.windowSeconds call.pruneNow).stamps clientIp := by
  unfold step checkIpRateLimit
  dsimp only
  split
  · exact Function.update_of_ne other _ _
  · exact Function.update_of_ne other _ _

theorem found_sublist (buckets : Buckets) (call : Call) :
    (found buckets call).Sublist (buckets.stamps call.clientIp) :=
  (evict_suffix _ _ _).sublist.trans (prune_sublist _ _ _ _)

theorem step_answered (state : State) (call : Call) :
    stampsOf clientIp (step state call).answered = stampsOf clientIp state.answered ++
      if allowed state call && call.clientIp == clientIp then [call.now] else [] :=
  stampsOf_snoc state.answered (call, allowed state call)

theorem Tracks.later (tracks : Tracks clientIp windowSeconds state since) (after : since ≤ now) :
    Tracks clientIp windowSeconds state now where
  ordered := tracks.ordered
  past other stamp listed := le_trans (tracks.past other stamp listed) after
  shown := tracks.shown.later after

theorem Tracks.step (tracks : Tracks clientIp windowSeconds state since)
    (forward : call.now ≤ call.pruneNow) (after : since ≤ call.now)
    (spares : Spares call clientIp windowSeconds) :
    Tracks clientIp windowSeconds (step state call) call.pruneNow := by
  have reached : since ≤ call.pruneNow := le_trans after forward
  have pruned : Shows (seconds windowSeconds) (stampsOf clientIp state.answered)
      ((pruneStale state.buckets call.windowSeconds call.pruneNow).stamps clientIp)
      call.pruneNow := by
    refine tracks.pruned reached fun stamp old => ?_
    have twice : windowSeconds ≤ 2 * call.windowSeconds := spares.2
    linarith
  have foundOrdered : Chronological (found state.buckets call) :=
    (tracks.ordered call.clientIp).sublist (found_sublist state.buckets call)
  have foundPast : ∀ stamp ∈ found state.buckets call, stamp ≤ call.now := fun stamp listed =>
    le_trans (tracks.past call.clientIp stamp ((found_sublist state.buckets call).subset listed))
      after
  constructor
  · intro other
    by_cases own : other = call.clientIp
    · rw [own, step_same]
      cases allowed state call with
      | true => exact foundOrdered.snoc foundPast
      | false =>
          rw [if_neg Bool.false_ne_true, List.append_nil]
          exact foundOrdered
    · rw [step_other state call own]
      exact (tracks.ordered other).sublist (prune_sublist _ _ _ _)
  · intro other stamp listed
    by_cases own : other = call.clientIp
    · rw [own, step_same] at listed
      obtain kept | new := List.mem_append.mp listed
      · exact le_trans (foundPast stamp kept) forward
      · cases granted : allowed state call with
        | true =>
            rw [granted, if_pos rfl] at new
            rw [List.mem_singleton.mp new]
            exact forward
        | false =>
            rw [granted, if_neg Bool.false_ne_true] at new
            cases new
    · rw [step_other state call own] at listed
      exact le_trans (tracks.past other stamp ((prune_sublist _ _ _ _).subset listed)) reached
  · rw [step_answered]
    by_cases own : clientIp = call.clientIp
    · have longer : windowSeconds ≤ call.windowSeconds := spares.1 own.symm
      have kept : Shows (seconds windowSeconds) (stampsOf clientIp state.answered)
          (found state.buckets call) call.pruneNow := by
        have ordered := (tracks.ordered call.clientIp).sublist
          (prune_sublist state.buckets call.windowSeconds call.pruneNow call.clientIp)
        rw [found, evict_eq_inside ordered, ← own]
        refine pruned.drop (le_refl _) fun stamp out => ?_
        have away : call.windowSeconds < call.now - stamp := of_decide_eq_true out
        exact decide_eq_true (by linarith)
      rw [own, step_same, ← own, beq_self_eq_true, Bool.and_true]
      cases allowed state call with
      | true => exact kept.snoc call.now
      | false =>
          rw [if_neg Bool.false_ne_true, List.append_nil, List.append_nil]
          exact kept
    · have others : (call.clientIp == clientIp) = false := beq_eq_false_iff_ne.mpr (Ne.symm own)
      rw [step_other state call own, others, Bool.and_false, if_neg Bool.false_ne_true,
        List.append_nil]
      exact pruned

theorem Tracks.found (tracks : Tracks call.clientIp call.windowSeconds state since)
    (after : since ≤ call.now) (prompt : call.pruneNow - call.now ≤ call.windowSeconds) :
    (found state.buckets call).length = (state.fromAddress call).length := by
  have pruned : Shows (seconds call.windowSeconds) (stampsOf call.clientIp state.answered)
      ((pruneStale state.buckets call.windowSeconds call.pruneNow).stamps call.clientIp)
      call.now := by
    refine tracks.pruned after fun stamp old => ?_
    linarith
  have ordered := (tracks.ordered call.clientIp).sublist
    (prune_sublist state.buckets call.windowSeconds call.pruneNow call.clientIp)
  rw [IpRateLimits.found, pruned.evicted ordered (le_refl _), inside_stampsOf]

theorem ownLimit_iff (tracks : Tracks call.clientIp call.windowSeconds state since)
    (after : since ≤ call.now) (prompt : call.pruneNow - call.now ≤ call.windowSeconds) :
    OwnLimit state call ↔ ((state.fromAddress call).length : Int) < call.limit ∨
      call.limit ≤ (state.ofEndpoint call).length := by
  have own : (state.ofEndpoint call).length ≤ (state.fromAddress call).length :=
    List.length_filter_le _ _
  rw [OwnLimit, allowed_iff, tracks.found after prompt]
  omega

end Deques

theorem answered_calls (calls : List Call) :
    (run step noCalls calls).answered.map Prod.fst = calls := by
  refine history_induction step noCalls
    (fun state calls => state.answered.map Prod.fst = calls) rfl ?_ calls
  intro calls call ih
  rw [step, List.map_append, ih]
  rfl

theorem tracks_run {clientIp : String} {windowSeconds : ℚ} (calls : List Call)
    (timely : Timely calls)
    (spare : ∀ call ∈ calls, Spares call clientIp windowSeconds) :
    ∀ now, (∀ call ∈ calls, call.pruneNow ≤ now) →
      Tracks clientIp windowSeconds (run step noCalls calls) now := by
  induction calls using List.reverseRecOn with
  | nil =>
      intro now _
      exact ⟨fun _ => List.Pairwise.nil, fun _ _ => nofun, Shows.refl _ _ _⟩
  | append_singleton earlier call ih =>
      intro now reached
      obtain ⟨forward, inTurn⟩ := timely
      obtain ⟨earlierTurn, -, before⟩ := List.pairwise_append.mp inTurn
      have isLast : call ∈ earlier ++ [call] := List.mem_append_right _ (List.mem_singleton_self _)
      have before' : Tracks clientIp windowSeconds (run step noCalls earlier) call.now := by
        refine ih ⟨fun other listed => forward other (List.mem_append_left _ listed), earlierTurn⟩
          (fun other listed => spare other (List.mem_append_left _ listed)) call.now ?_
        intro other listed
        exact before other listed call (List.mem_singleton_self call)
      rw [run_append]
      exact (before'.step (forward call isLast) (le_refl _) (spare call isLast)).later
        (reached call isLast)

/-- In a run of calls none of which another disturbs, each endpoint has its own limit. -/
theorem undisturbed_ownLimit (calls : List Call) (timely : Timely calls)
    (undisturbed : AllSteps step Undisturbed noCalls calls) :
    AllSteps step OwnLimit noCalls calls := by
  refine allSteps_of_splits step OwnLimit calls noCalls fun earlier call later split => ?_
  rw [split, allSteps_append] at undisturbed
  obtain ⟨-, ⟨spared, prompt, counts⟩, -⟩ := undisturbed
  rw [split] at timely
  obtain ⟨forward, inTurn⟩ := timely
  obtain ⟨earlierTurn, -, before⟩ := List.pairwise_append.mp inTurn
  have spare : ∀ other ∈ earlier, Spares other call.clientIp call.windowSeconds := by
    intro other listed
    rw [← answered_calls earlier] at listed
    obtain ⟨entry, answered, rfl⟩ := List.mem_map.mp listed
    exact spared entry answered
  have tracks : Tracks call.clientIp call.windowSeconds (run step noCalls earlier) call.now := by
    refine tracks_run earlier
      ⟨fun other listed => forward other (List.mem_append_left _ listed), earlierTurn⟩ spare
      call.now fun other listed => ?_
    exact before other listed call List.mem_cons_self
  exact (ownLimit_iff tracks (le_refl _) prompt).mpr counts

/-- `join_waitlist` at a clock reading. -/
def joinWaitlist (clientIp : String) (now : ℚ) : Call :=
  ⟨"waitlist", clientIp, 5, 60, now, now⟩

/-- `forgot_password` at a clock reading. -/
def forgotPassword (clientIp : String) (now : ℚ) : Call :=
  ⟨"forgot_password", clientIp, 3, 60, now, now⟩

/-- Three waitlist calls use up the limit of the password endpoint. -/
theorem undisturbed_fails :
    ∃ calls, Timely calls ∧ ¬ AllSteps step OwnLimit noCalls calls := by
  refine ⟨[joinWaitlist "203.0.113.7" 1000, joinWaitlist "203.0.113.7" 1001,
    joinWaitlist "203.0.113.7" 1002, forgotPassword "203.0.113.7" 1003], ?_, ?_⟩
  · unfold Timely
    decide +kernel
  · intro own
    have blocked := own.2.2.2.1
    unfold OwnLimit at blocked
    revert blocked
    decide +kernel

/-- Two endpoints below their limits together. -/
theorem undisturbed_ownLimit_two :
    AllSteps step OwnLimit noCalls
      [joinWaitlist "203.0.113.7" 1000, forgotPassword "203.0.113.7" 1001] := by
  refine undisturbed_ownLimit _ ?_ ?_
  · unfold Timely
    decide +kernel
  · unfold AllSteps AllSteps AllSteps Undisturbed Spares
    decide +kernel

end OdooSemantic.WebUi.IpRateLimits
