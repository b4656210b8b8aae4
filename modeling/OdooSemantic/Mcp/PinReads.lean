import OdooSemantic.Mcp.SessionPins

/-!
# What reads of session pins do

Pins that expire by themselves are what the store is for.  The store shows the same as long
as no write meets an expired entry that it would treat otherwise than no entry; a write that
does brings the other pin back, unless a read came before it.
-/

set_option autoImplicit false

namespace OdooSemantic.Mcp.SessionPins

open Lib.OrderedDict Lib.Run

def live (now : Nat) (cache : List (String × CacheEntry)) : List (String × CacheEntry) :=
  cache.filter fun item => !expired now item.2

section Pins
variable (numeric : String → Bool) (pinMax : Nat)

def pinsStep (pins : Store) (op : Op) : Store :=
  match op, op.target numeric with
  | .tick elapsed, _ =>
      ⟨pins.now + elapsed, live (pins.now + elapsed) pins.cache⟩
  | _, some key => { pins with cache := writeAt pinMax pins.now op pins.cache key }
  | _, none => pins

def pinsOf (store : Store) : Store := { store with cache := live store.now store.cache }

def MeetsNoExpired (store : Store) (op : Op) : Prop :=
  ∀ key entry, op.target numeric = some key → store.cache.lookup key = some entry →
    expired store.now entry = true →
    op.written store.now (some entry) = op.written store.now none

variable {store : Store} {entry : CacheEntry} {op : Op} {key : String}
variable {field : SessionState → Option String}

theorem live_lookup (wf : WellFormed store) (key : String) :
    (live store.now store.cache).lookup key =
      (store.cache.lookup key).filter fun entry => !expired store.now entry :=
  lookup_filter (fun item => !expired store.now item.2) key wf.distinct

theorem expired_later {now later : Nat} (elapsed : now ≤ later)
    (late : expired now entry = true) : expired later entry = true := by
  simp only [expired, decide_eq_true_eq] at late ⊢
  omega

theorem not_expired_atNow {now : Nat} (atNow : entry.setAt = now) :
    expired now entry = false := by
  simp only [expired, decide_eq_false_iff_not]
  omega

theorem live_live {now later : Nat} (cache : List (String × CacheEntry)) (elapsed : now ≤ later) :
    live later (live now cache) = live later cache := by
  simp only [live, List.filter_filter]
  refine List.filter_congr fun item _ => ?_
  cases late : expired later item.2 with
  | true => rfl
  | false =>
      cases before : expired now item.2 with
      | false => rfl
      | true =>
          rw [expired_later elapsed before] at late
          cases late

theorem WellFormed.expiresInOrder (wf : WellFormed store) :
    ExpiresInOrder (fun item : String × CacheEntry => !expired store.now item.2) store.cache := by
  refine wf.ordered.imp fun {first second} older firstLive => ?_
  simp only [Bool.not_eq_true', expired, decide_eq_false_iff_not] at firstLive ⊢
  omega

theorem live_writeAt (wf : WellFormed store)
    (target : op.target numeric = some key) (meets : MeetsNoExpired numeric store op) :
    live store.now (writeAt pinMax store.now op store.cache key) =
      writeAt pinMax store.now op (live store.now store.cache) key := by
  have same : op.written store.now ((live store.now store.cache).lookup key) =
      op.written store.now (store.cache.lookup key) := by
    rw [live_lookup wf]
    cases found : store.cache.lookup key with
    | none => rfl
    | some entry =>
        cases late : expired store.now entry with
        | false => simp only [Option.filter_some, late, Bool.not_false, if_true]
        | true =>
            simp only [Option.filter_some, late, Bool.not_true, Bool.false_eq_true, if_false]
            exact (meets key entry target found late).symm
  simp only [writeAt, same]
  cases written : op.written store.now (store.cache.lookup key) with
  | none => rfl
  | some entry =>
      have atNow := written_setAt numeric target written
      have kept : live store.now (put store.cache key entry) =
          put (live store.now store.cache) key entry := by
        simp only [live, put, List.filter_append, pop_filter, List.filter_cons, List.filter_nil,
          not_expired_atNow atNow, Bool.not_false, if_true]
      calc live store.now (evictIfOverCap pinMax (put store.cache key entry))
          = evictIfOverCap pinMax (live store.now (put store.cache key entry)) :=
            keepLast_filter pinMax (wf.put key atNow).expiresInOrder
        _ = evictIfOverCap pinMax (put (live store.now store.cache) key entry) := by rw [kept]

theorem pinsOf_step (wf : WellFormed store) (op : Op)
    (meets : MeetsNoExpired numeric store op) :
    pinsOf (step numeric pinMax store op) = pinsStep numeric pinMax (pinsOf store) op := by
  cases target : op.target numeric with
  | some key =>
      have stepped : pinsStep numeric pinMax (pinsOf store) op =
          { pinsOf store with
            cache := writeAt pinMax store.now op (live store.now store.cache) key } := by
        cases op with
        | tick | get => cases target
        | setVersion | setProfile => simp only [pinsStep, target, pinsOf]
      rw [step_write numeric pinMax store target, stepped]
      simp only [pinsOf, live_writeAt numeric pinMax wf target meets]
  | none =>
      obtain ⟨same, other⟩ | ⟨elapsed, tick⟩ |
          ⟨apiKeyId, mcpSessionId, entry, read, found, late, dropped⟩ :=
        step_no_write numeric pinMax store target
      · rw [same]
        cases op with
        | tick elapsed => exact absurd rfl (other elapsed)
        | get => rfl
        | setVersion | setProfile => simp only [pinsStep, target]
      · rw [tick]
        simp only [pinsOf, pinsStep, step,
          live_live store.cache (Nat.le_add_right store.now elapsed)]
      · have absent : (live store.now store.cache).lookup (ck apiKeyId mcpSessionId) = none := by
          rw [live_lookup wf, found, Option.filter_some, late]
          rfl
        rw [dropped, read]
        simp only [pinsOf, pinsStep, Op.target, live, pop_filter]
        rw [← live, pop_of_absent absent]

theorem run_wellFormed (ops : List Op) :
    WellFormed (run (step numeric pinMax) emptyStore ops) :=
  run_preserves (step numeric pinMax) WellFormed (step_wellFormed numeric pinMax) emptyStore
    emptyStore_wellFormed ops

/-- No write of the run meets an expired entry that it treats otherwise than none. -/
def Clean (ops : List Op) : Prop :=
  AllSteps (step numeric pinMax) (MeetsNoExpired numeric) emptyStore ops

theorem run_pinsOf {ops : List Op} (clean : Clean numeric pinMax ops) :
    pinsOf (run (step numeric pinMax) emptyStore ops) =
      run (pinsStep numeric pinMax) emptyStore ops := by
  induction ops using List.reverseRecOn with
  | nil => rfl
  | append_singleton ops op ih =>
      obtain ⟨before, last⟩ := (allSteps_append _ _ _ ops [op]).mp clean
      rw [run_append, run_append, run_cons, run_nil, run_cons, run_nil,
        pinsOf_step numeric pinMax (run_wellFormed numeric pinMax ops) op last.1, ih before]

theorem run_pins_writes (pins : Store) (ops : List Op) :
    run (pinsStep numeric pinMax) pins (writes ops) = run (pinsStep numeric pinMax) pins ops := by
  induction ops generalizing pins with
  | nil => rfl
  | cons op rest ih =>
      cases op with
      | get apiKeyId mcpSessionId => exact ih pins
      | tick elapsed | setVersion apiKeyId odooVersion mcpSessionId
      | setProfile apiKeyId profileName mcpSessionId => exact ih _

theorem answer_pins (wf : WellFormed store) (apiKeyId mcpSessionId : String) :
    answer numeric store apiKeyId mcpSessionId =
      if numeric apiKeyId then
        ((pinsOf store).cache.lookup (ck apiKeyId mcpSessionId)).map CacheEntry.state
      else none := by
  simp only [answer, getSessionState, pinsOf, live_lookup wf]
  by_cases accepted : numeric apiKeyId = true
  · rw [if_pos accepted, if_pos accepted]
    cases found : store.cache.lookup (ck apiKeyId mcpSessionId) with
    | none => rfl
    | some entry =>
        cases late : expired store.now entry with
        | true | false => simp only [Option.filter_some, late]; rfl
  · rw [if_neg accepted, if_neg accepted]

def PureReads (ops : List Op) : Prop :=
  ∀ earlier apiKeyId mcpSessionId later, ops = earlier ++ .get apiKeyId mcpSessionId :: later →
    ∀ fewer, fewer.Sublist earlier → writes fewer = writes earlier →
      answer numeric (run (step numeric pinMax) emptyStore fewer) apiKeyId mcpSessionId =
        answer numeric (run (step numeric pinMax) emptyStore earlier) apiKeyId mcpSessionId

theorem answer_congr {ops others : List Op} (clean : Clean numeric pinMax ops)
    (cleanOthers : Clean numeric pinMax others) (same : writes others = writes ops)
    (apiKeyId mcpSessionId : String) :
    answer numeric (run (step numeric pinMax) emptyStore others) apiKeyId mcpSessionId =
      answer numeric (run (step numeric pinMax) emptyStore ops) apiKeyId mcpSessionId := by
  have pins : pinsOf (run (step numeric pinMax) emptyStore others) =
      pinsOf (run (step numeric pinMax) emptyStore ops) := by
    rw [run_pinsOf numeric pinMax cleanOthers, run_pinsOf numeric pinMax clean,
      ← run_pins_writes numeric pinMax emptyStore others, same,
      run_pins_writes numeric pinMax emptyStore ops]
  rw [answer_pins numeric (run_wellFormed numeric pinMax others), pins,
    answer_pins numeric (run_wellFormed numeric pinMax ops)]

def shown (field : SessionState → Option String) (cache : List (String × CacheEntry))
    (key : String) : Option String :=
  (cache.lookup key).bind fun entry => field entry.state

theorem shown_sublist
    {fewer cache : List (String × CacheEntry)} (sublist : fewer.Sublist cache)
    (distinct : KeysDistinct cache) (unset : shown field cache key = none) :
    shown field fewer key = none := by
  obtain absent | same := lookup_sublist sublist distinct key
  · rw [shown, absent, Option.bind_none]
  · rw [shown, same]
    exact unset

def LeavesUnset (field : SessionState → Option String) (key : String) (op : Op) : Prop :=
  op.target numeric = some key → ∀ now found,
    (found.bind fun entry : CacheEntry => field entry.state) = none →
    ((op.written now found).bind fun entry => field entry.state) = none

theorem shown_pinsStep {pins : Store}
    (distinct : KeysDistinct pins.cache) (leaves : LeavesUnset numeric field key op)
    (unset : shown field pins.cache key = none) :
    shown field (pinsStep numeric pinMax pins op).cache key = none := by
  cases target : op.target numeric with
  | none =>
      cases op with
      | tick elapsed => exact shown_sublist List.filter_sublist distinct unset
      | get => exact unset
      | setVersion | setProfile =>
          simp only [pinsStep, target]
          exact unset
  | some written =>
      have stepped : (pinsStep numeric pinMax pins op).cache =
          writeAt pinMax pins.now op pins.cache written := by
        cases op with
        | tick | get => cases target
        | setVersion | setProfile => simp only [pinsStep, target]
      rw [stepped, writeAt]
      cases left : op.written pins.now (pins.cache.lookup written) with
      | none => exact unset
      | some entry =>
          refine shown_sublist (keepLast_suffix pinMax _).sublist
            (put_distinct written entry distinct) ?_
          rw [shown, lookup_put]
          by_cases same : key = written
          · rw [if_pos same]
            have kept := leaves (by rw [target, same]) pins.now (pins.cache.lookup key) unset
            rwa [same, left] at kept
          · rw [if_neg same]
            exact unset

theorem shown_run {earlier : List Op}
    (between : List Op) (clean : Clean numeric pinMax (earlier ++ between))
    (leaves : ∀ op ∈ between, LeavesUnset numeric field key op)
    (unset : shown field (pinsOf (run (step numeric pinMax) emptyStore earlier)).cache key =
      none) :
    shown field (pinsOf (run (step numeric pinMax) emptyStore (earlier ++ between))).cache key =
      none := by
  induction between using List.reverseRecOn with
  | nil =>
      rw [List.append_nil]
      exact unset
  | append_singleton between op ih =>
      rw [← List.append_assoc] at clean ⊢
      obtain ⟨before, last⟩ := (allSteps_append _ _ _ (earlier ++ between) [op]).mp clean
      have wf := run_wellFormed numeric pinMax (earlier ++ between)
      have distinct : KeysDistinct
          (pinsOf (run (step numeric pinMax) emptyStore (earlier ++ between))).cache :=
        wf.distinct.sublist (List.filter_sublist.map Prod.fst)
      rw [run_append, run_cons, run_nil, pinsOf_step numeric pinMax wf op last.1]
      refine shown_pinsStep numeric pinMax distinct
        (leaves op (List.mem_append_right between List.mem_cons_self)) ?_
      exact ih before fun other listed => leaves other (List.mem_append_left [op] listed)

def Op.setsVersion (key : String) : Op → Bool
  | .setVersion apiKeyId _ mcpSessionId => ck apiKeyId mcpSessionId == key
  | .setProfile _ _ _ | .tick _ | .get _ _ => false

def Op.setsProfile (key : String) : Op → Bool
  | .setProfile apiKeyId (some _) mcpSessionId => ck apiKeyId mcpSessionId == key
  | .setProfile _ none _ | .setVersion _ _ _ | .tick _ | .get _ _ => false

theorem leavesUnset_version (other : op.setsVersion key = false) :
    LeavesUnset numeric SessionState.odooVersion key op := by
  intro target now found unset
  cases op with
  | tick | get => cases target
  | setVersion apiKeyId odooVersion mcpSessionId =>
      simp only [Op.target] at target
      by_cases accepted : numeric apiKeyId = true
      · rw [if_pos accepted] at target
        cases target
        simp only [Op.setsVersion, beq_self_eq_true, Bool.true_eq_false] at other
      · rw [if_neg accepted] at target
        cases target
  | setProfile apiKeyId profileName mcpSessionId =>
      cases found with
      | none =>
          cases profileName with
          | none | some name => rfl
      | some entry =>
          cases profileName with
          | none | some name => exact unset

theorem leavesUnset_profile (other : op.setsProfile key = false) :
    LeavesUnset numeric SessionState.profileName key op := by
  intro target now found unset
  cases op with
  | tick | get => cases target
  | setVersion apiKeyId odooVersion mcpSessionId =>
      cases found with
      | none => rfl
      | some entry => exact unset
  | setProfile apiKeyId profileName mcpSessionId =>
      cases profileName with
      | none =>
          cases found with
          | none | some entry => rfl
      | some name =>
          simp only [Op.target] at target
          by_cases accepted : numeric apiKeyId = true
          · rw [if_pos accepted] at target
            cases target
            simp only [Op.setsProfile, beq_self_eq_true, Bool.true_eq_false] at other
          · rw [if_neg accepted] at target
            cases target

/-- Once a read would return no version, or no profile, no later read returns one that was
not set in between. -/
def ExpiredStayAway (ops : List Op) : Prop :=
  ∀ earlier between apiKeyId mcpSessionId later,
    ops = earlier ++ between ++ .get apiKeyId mcpSessionId :: later →
    let before := answer numeric (run (step numeric pinMax) emptyStore earlier)
      apiKeyId mcpSessionId
    let after := answer numeric (run (step numeric pinMax) emptyStore (earlier ++ between))
      apiKeyId mcpSessionId
    ((∀ op ∈ between, op.setsVersion (ck apiKeyId mcpSessionId) = false) →
      before.bind SessionState.odooVersion = none → after.bind SessionState.odooVersion = none) ∧
    ((∀ op ∈ between, op.setsProfile (ck apiKeyId mcpSessionId) = false) →
      before.bind SessionState.profileName = none → after.bind SessionState.profileName = none)

theorem answer_shown (field : SessionState → Option String)
    (wf : WellFormed store) (apiKeyId mcpSessionId : String) :
    (answer numeric store apiKeyId mcpSessionId).bind field =
      if numeric apiKeyId then shown field (pinsOf store).cache (ck apiKeyId mcpSessionId)
      else none := by
  rw [answer_pins numeric wf]
  by_cases accepted : numeric apiKeyId = true
  · rw [if_pos accepted, if_pos accepted, Option.bind_map]
    rfl
  · rw [if_neg accepted, if_neg accepted, Option.bind_none]

variable {apiKeyId mcpSessionId : String}

theorem answer_stays_unset {earlier between : List Op}
    (clean : Clean numeric pinMax (earlier ++ between))
    (leaves : ∀ op ∈ between, LeavesUnset numeric field (ck apiKeyId mcpSessionId) op)
    (unset : (answer numeric (run (step numeric pinMax) emptyStore earlier)
      apiKeyId mcpSessionId).bind field = none) :
    (answer numeric (run (step numeric pinMax) emptyStore (earlier ++ between))
      apiKeyId mcpSessionId).bind field = none := by
  rw [answer_shown numeric field (run_wellFormed numeric pinMax earlier)] at unset
  rw [answer_shown numeric field (run_wellFormed numeric pinMax (earlier ++ between))]
  by_cases accepted : numeric apiKeyId = true
  · rw [if_pos accepted] at unset ⊢
    exact shown_run numeric pinMax between clean leaves unset
  · rw [if_neg accepted]

theorem run_bounded (ops : List Op) :
    (run (step numeric pinMax) emptyStore ops).cache.length ≤ pinMax := by
  refine run_preserves (step numeric pinMax) (fun store => store.cache.length ≤ pinMax) ?_
    emptyStore (Nat.zero_le pinMax) ops
  intro store op bounded
  cases target : op.target numeric with
  | some key =>
      rw [step_write numeric pinMax store target]
      simp only [writeAt]
      cases op.written store.now (store.cache.lookup key) with
      | none => exact bounded
      | some entry => exact keepLast_length_le pinMax _
  | none =>
      obtain ⟨same, -⟩ | ⟨elapsed, tick⟩ | ⟨apiKeyId, mcpSessionId, entry, -, -, -, dropped⟩ :=
        step_no_write numeric pinMax store target
      · rw [same]
        exact bounded
      · rw [tick]
        exact bounded
      · rw [dropped]
        exact Nat.le_trans (List.length_filter_le ..) bounded

theorem answer_written (room : 0 < pinMax) (wf : WellFormed store)
    (accepted : numeric apiKeyId = true)
    (target : op.target numeric = some (ck apiKeyId mcpSessionId))
    (written : op.written store.now (store.cache.lookup (ck apiKeyId mcpSessionId)) =
      some entry) :
    answer numeric (step numeric pinMax store op) apiKeyId mcpSessionId = some entry.state := by
  have found : (step numeric pinMax store op).cache.lookup (ck apiKeyId mcpSessionId) =
      some entry := by
    rw [step_write numeric pinMax store target, writeAt, written]
    exact lookup_keepLast_put room store.cache _ entry wf.distinct
  have clock : (step numeric pinMax store op).now = store.now := by
    rw [step_write numeric pinMax store target]
  have fresh := not_expired_atNow (written_setAt numeric target written)
  simp only [answer, getSessionState, accepted, if_true, found, clock, fresh]
  rfl

theorem answer_unwritten
    (target : op.target numeric = some (ck apiKeyId mcpSessionId))
    (absent : store.cache.lookup (ck apiKeyId mcpSessionId) = none)
    (written : op.written store.now none = none) :
    answer numeric (step numeric pinMax store op) apiKeyId mcpSessionId = none := by
  have found : (step numeric pinMax store op).cache.lookup (ck apiKeyId mcpSessionId) = none := by
    rw [step_write numeric pinMax store target, writeAt, absent, written]
    exact absent
  simp only [answer, getSessionState, found]
  by_cases accepted : numeric apiKeyId = true
  · rw [if_pos accepted]
  · rw [if_neg accepted]

theorem step_get_expired
    (accepted : numeric apiKeyId = true)
    (found : store.cache.lookup (ck apiKeyId mcpSessionId) = some entry)
    (late : expired store.now entry = true) :
    step numeric pinMax store (.get apiKeyId mcpSessionId) =
      { store with cache := pop store.cache (ck apiKeyId mcpSessionId) } := by
  simp only [step, getSessionState, accepted, if_true, found, late]

theorem target_session (target : op.target numeric = some key) :
    ∃ apiKeyId mcpSessionId, numeric apiKeyId = true ∧ key = ck apiKeyId mcpSessionId := by
  cases op with
  | tick | get => cases target
  | setVersion apiKeyId odooVersion mcpSessionId | setProfile apiKeyId profileName mcpSessionId =>
      simp only [Op.target] at target
      by_cases accepted : numeric apiKeyId = true
      · rw [if_pos accepted] at target
        cases target
        exact ⟨apiKeyId, mcpSessionId, accepted, rfl⟩
      · rw [if_neg accepted] at target
        cases target

theorem written_some (now : Nat) (op : Op) (entry : CacheEntry) :
    ∃ left, op.written now (some entry) = some left := by
  cases op with
  | tick | get => exact ⟨entry, rfl⟩
  | setVersion => exact ⟨_, rfl⟩
  | setProfile apiKeyId profileName mcpSessionId =>
      cases profileName with
      | none | some name => exact ⟨_, rfl⟩

/-- A write after a read of its session answers as without the read only when it does not
care for the expired entry. -/
theorem meets_of_answers (room : 0 < pinMax) (wf : WellFormed store)
    (accepted : numeric apiKeyId = true)
    (target : op.target numeric = some (ck apiKeyId mcpSessionId))
    (found : store.cache.lookup (ck apiKeyId mcpSessionId) = some entry)
    (late : expired store.now entry = true)
    (same : answer numeric (step numeric pinMax store op) apiKeyId mcpSessionId =
      answer numeric (step numeric pinMax
        (step numeric pinMax store (.get apiKeyId mcpSessionId)) op) apiKeyId mcpSessionId) :
    op.written store.now (some entry) = op.written store.now none := by
  obtain ⟨left, written⟩ := written_some store.now op entry
  let dropped : Store := { store with cache := pop store.cache (ck apiKeyId mcpSessionId) }
  have absent : dropped.cache.lookup (ck apiKeyId mcpSessionId) = none := by
    rw [lookup_pop, if_pos rfl]
  have wfDropped : WellFormed dropped := wf.sublist List.filter_sublist
  rw [answer_written numeric pinMax room wf accepted target (by rw [found]; exact written),
    step_get_expired numeric pinMax accepted found late] at same
  cases fresh : op.written store.now none with
  | none =>
      have none := answer_unwritten numeric pinMax target absent fresh
      rw [none] at same
      cases same
  | some other =>
      rw [answer_written numeric pinMax room wfDropped accepted target
        (by rw [absent]; exact fresh)] at same
      have times := (written_setAt numeric target written).trans
        (written_setAt numeric target fresh).symm
      have states : left.state = other.state := Option.some.inj same
      rw [written]
      congr 1
      calc left = ⟨left.state, left.setAt⟩ := rfl
        _ = ⟨other.state, other.setAt⟩ := by rw [states, times]

theorem clean_of_pure {ops : List Op}
    (pure : ∀ others, writes others = writes ops → PureReads numeric pinMax others) :
    Clean numeric pinMax ops := by
  refine allSteps_of_splits (step numeric pinMax) (MeetsNoExpired numeric) ops emptyStore ?_
  intro earlier op later split key entry target found late
  obtain ⟨apiKeyId, mcpSessionId, accepted, same⟩ := target_session numeric target
  rw [same] at target found
  have wf := run_wellFormed numeric pinMax earlier
  have room : 0 < pinMax := by
    have bounded := run_bounded numeric pinMax earlier
    have listed := List.length_pos_of_mem (lookup_mem found)
    omega
  have sameWrites : writes (earlier ++ [.get apiKeyId mcpSessionId, op] ++
      .get apiKeyId mcpSessionId :: later) = writes ops := by
    simp only [writes, split, List.filter_append, List.filter_cons, Op.isGet, Bool.not_true,
      Bool.false_eq_true, if_false, List.append_assoc, List.cons_append, List.nil_append]
  have fewer : writes (earlier ++ [op]) =
      writes (earlier ++ [.get apiKeyId mcpSessionId, op]) := by
    simp only [writes, List.filter_append, List.filter_cons, List.filter_nil, Op.isGet,
      Bool.not_true, Bool.false_eq_true, if_false]
  have answers := pure _ sameWrites (earlier ++ [.get apiKeyId mcpSessionId, op])
    apiKeyId mcpSessionId later rfl (earlier ++ [op])
    (List.Sublist.append_left (List.sublist_cons_self _ [op]) earlier) fewer
  simp only [run_append, run_cons, run_nil] at answers
  exact meets_of_answers numeric pinMax room wf accepted target found late answers

/-- For a sequence of writes, reads change nothing and expired pins stay away, wherever reads
are placed, if and only if no write meets an expired entry that it treats otherwise than none,
wherever reads are placed. -/
theorem pins_pure_iff (sets : List Op) :
    (∀ ops, writes ops = sets →
      PureReads numeric pinMax ops ∧ ExpiredStayAway numeric pinMax ops) ↔
    ∀ ops, writes ops = sets → Clean numeric pinMax ops := by
  constructor
  · intro holds ops same
    exact clean_of_pure numeric pinMax fun others sameWrites =>
      (holds others (sameWrites.trans same)).1
  · intro clean ops same
    constructor
    · intro earlier apiKeyId mcpSessionId later split fewer _ sameWrites
      have cleanEarlier : Clean numeric pinMax earlier := by
        have whole := clean ops same
        rw [split] at whole
        exact ((allSteps_append _ _ _ earlier _).mp whole).1
      have cleanFewer : Clean numeric pinMax fewer := by
        have whole := clean (fewer ++ .get apiKeyId mcpSessionId :: later) (by
          rw [← same, split]
          simp only [writes, List.filter_append] at sameWrites ⊢
          rw [sameWrites])
        exact ((allSteps_append _ _ _ fewer _).mp whole).1
      exact answer_congr numeric pinMax cleanEarlier cleanFewer sameWrites apiKeyId mcpSessionId
    · intro earlier between apiKeyId mcpSessionId later split
      have cleanBoth : Clean numeric pinMax (earlier ++ between) := by
        have whole := clean ops same
        rw [split] at whole
        exact ((allSteps_append _ _ _ (earlier ++ between) _).mp whole).1
      refine ⟨fun others unset => ?_, fun others unset => ?_⟩
      · exact answer_stays_unset numeric pinMax cleanBoth
          (fun op listed => leavesUnset_version numeric (others op listed)) unset
      · exact answer_stays_unset numeric pinMax cleanBoth
          (fun op listed => leavesUnset_profile numeric (others op listed)) unset

end Pins

def digits (text : String) : Bool := text != "" && text.toList.all Char.isDigit

def pinnedProfile : Op := .setProfile "7" (some "erp-prod") "s1"

def nextDay : Op := .tick (25 * 3600 * 1000000000)

def pinnedVersion : Op := .setVersion "7" "17.0" "s1"

/-- The version pinned a day later brings the expired profile back, unless it was read. -/
theorem expired_profile_returns :
    answer digits (run (step digits 50000) emptyStore [pinnedProfile, nextDay]) "7" "s1" = none ∧
      answer digits (run (step digits 50000) emptyStore
        [pinnedProfile, nextDay, pinnedVersion]) "7" "s1" =
          some ⟨"7", some "17.0", some "erp-prod"⟩ ∧
      answer digits (run (step digits 50000) emptyStore
        [pinnedProfile, nextDay, .get "7" "s1", pinnedVersion]) "7" "s1" =
          some ⟨"7", some "17.0", none⟩ := by
  decide

end OdooSemantic.Mcp.SessionPins
