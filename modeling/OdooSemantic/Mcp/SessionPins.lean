import OdooSemantic.Lib.OrderedDict
import OdooSemantic.Lib.Run

/-!
# Session pins

The version and the profile pinned for an API key and an MCP session share one entry and one
time of the last write.  Only a read drops an expired entry; a write refreshes whatever it
finds, so what a later read returns may depend on the reads before it.
-/

set_option autoImplicit false

namespace OdooSemantic.Mcp.SessionPins

open Lib.OrderedDict Lib.Run

structure SessionState where
  apiKeyId : String
  odooVersion : Option String
  profileName : Option String
  deriving DecidableEq

structure CacheEntry where
  state : SessionState
  setAt : Nat

/-- `_cache`, an `OrderedDict`, and the monotonic clock in nanoseconds. -/
structure Store where
  now : Nat
  cache : List (String × CacheEntry)

def sessionTtlHours : Nat := 24

def cutoff : Nat := sessionTtlHours * 3600 * 1000000000

def expired (now : Nat) (entry : CacheEntry) : Bool := cutoff < now - entry.setAt

def ck (apiKeyId mcpSessionId : String) : String := apiKeyId ++ "\x1f" ++ mcpSessionId

section Operations
variable (numeric : String → Bool) (pinMax : Nat)

/-- `get_session_state`; `numeric` is whether `int(api_key_id)` succeeds. -/
def getSessionState (store : Store) (apiKeyId mcpSessionId : String) :
    Store × Option SessionState :=
  if numeric apiKeyId then
    match store.cache.lookup (ck apiKeyId mcpSessionId) with
    | none => (store, none)
    | some entry =>
        if expired store.now entry then
          ({ store with cache := pop store.cache (ck apiKeyId mcpSessionId) }, none)
        else (store, some entry.state)
  else (store, none)

/-- `_evict_if_over_cap_locked`. -/
def evictIfOverCap (cache : List (String × CacheEntry)) : List (String × CacheEntry) :=
  keepLast pinMax cache

def setActiveVersionDb (store : Store) (apiKeyId odooVersion mcpSessionId : String) :
    Store × Bool :=
  if numeric apiKeyId then
    let key := ck apiKeyId mcpSessionId
    match store.cache.lookup key with
    | none =>
        ({ store with
            cache := evictIfOverCap pinMax
              (store.cache ++ [(key, ⟨⟨apiKeyId, some odooVersion, none⟩, store.now⟩)]) }, true)
    | some entry =>
        ({ store with
            cache := evictIfOverCap pinMax
              (put store.cache key
                ⟨{ entry.state with odooVersion := some odooVersion }, store.now⟩) }, true)
  else (store, false)

/-- `set_active_profile_db`; to clear a profile where no pin is does nothing. -/
def setActiveProfileDb (store : Store) (apiKeyId : String) (profileName : Option String)
    (mcpSessionId : String) : Store × Bool :=
  if numeric apiKeyId then
    let key := ck apiKeyId mcpSessionId
    match store.cache.lookup key, profileName with
    | none, none => (store, true)
    | none, some name =>
        ({ store with
            cache := evictIfOverCap pinMax
              (store.cache ++ [(key, ⟨⟨apiKeyId, none, some name⟩, store.now⟩)]) }, true)
    | some entry, _ =>
        ({ store with
            cache := evictIfOverCap pinMax
              (put store.cache key ⟨{ entry.state with profileName }, store.now⟩) }, true)
  else (store, false)

/-- An operation, or time that passes. -/
inductive Op where
  | tick (elapsed : Nat)
  | setVersion (apiKeyId odooVersion mcpSessionId : String)
  | setProfile (apiKeyId : String) (profileName : Option String) (mcpSessionId : String)
  | get (apiKeyId mcpSessionId : String)

def step (store : Store) : Op → Store
  | .tick elapsed => { store with now := store.now + elapsed }
  | .setVersion apiKeyId odooVersion mcpSessionId =>
      (setActiveVersionDb numeric pinMax store apiKeyId odooVersion mcpSessionId).1
  | .setProfile apiKeyId profileName mcpSessionId =>
      (setActiveProfileDb numeric pinMax store apiKeyId profileName mcpSessionId).1
  | .get apiKeyId mcpSessionId => (getSessionState numeric store apiKeyId mcpSessionId).1

def emptyStore : Store := ⟨0, []⟩

/-- What a read returns. -/
def answer (store : Store) (apiKeyId mcpSessionId : String) : Option SessionState :=
  (getSessionState numeric store apiKeyId mcpSessionId).2

def Op.isGet : Op → Bool
  | .get _ _ => true
  | .tick _ | .setVersion _ _ _ | .setProfile _ _ _ => false

/-- The operations without the reads. -/
def writes (ops : List Op) : List Op := ops.filter fun op => !op.isGet

/-- The key a write is about. -/
def Op.target : Op → Option String
  | .setVersion apiKeyId _ mcpSessionId | .setProfile apiKeyId _ mcpSessionId =>
      if numeric apiKeyId then some (ck apiKeyId mcpSessionId) else none
  | .tick _ | .get _ _ => none

def Op.written (now : Nat) : Op → Option CacheEntry → Option CacheEntry
  | .setVersion apiKeyId odooVersion _, none =>
      some ⟨⟨apiKeyId, some odooVersion, none⟩, now⟩
  | .setVersion _ odooVersion _, some entry =>
      some ⟨{ entry.state with odooVersion := some odooVersion }, now⟩
  | .setProfile apiKeyId (some name) _, none => some ⟨⟨apiKeyId, none, some name⟩, now⟩
  | .setProfile _ none _, none => none
  | .setProfile _ profileName _, some entry => some ⟨{ entry.state with profileName }, now⟩
  | .tick _, found | .get _ _, found => found

def writeAt (now : Nat) (op : Op) (cache : List (String × CacheEntry)) (key : String) :
    List (String × CacheEntry) :=
  match op.written now (cache.lookup key) with
  | none => cache
  | some entry => evictIfOverCap pinMax (put cache key entry)

theorem step_write (store : Store) {op : Op} {key : String}
    (target : op.target numeric = some key) :
    step numeric pinMax store op =
      { store with cache := writeAt pinMax store.now op store.cache key } := by
  cases op with
  | tick | get => cases target
  | setVersion apiKeyId odooVersion mcpSessionId =>
      simp only [Op.target] at target
      by_cases accepted : numeric apiKeyId = true
      · rw [if_pos accepted] at target
        cases target
        simp only [step, setActiveVersionDb, accepted, if_true, writeAt]
        cases found : store.cache.lookup (ck apiKeyId mcpSessionId) with
        | none => simp only [Op.written, put, pop_of_absent found]
        | some entry => rfl
      · rw [if_neg accepted] at target
        cases target
  | setProfile apiKeyId profileName mcpSessionId =>
      simp only [Op.target] at target
      by_cases accepted : numeric apiKeyId = true
      · rw [if_pos accepted] at target
        cases target
        simp only [step, setActiveProfileDb, accepted, if_true, writeAt]
        cases found : store.cache.lookup (ck apiKeyId mcpSessionId) with
        | none =>
            cases profileName with
            | none => rfl
            | some name => simp only [Op.written, put, pop_of_absent found]
        | some entry =>
            cases profileName with
            | none | some name => rfl
      · rw [if_neg accepted] at target
        cases target

theorem step_no_write (store : Store) {op : Op} (target : op.target numeric = none) :
    (step numeric pinMax store op = store ∧ ∀ elapsed, op ≠ .tick elapsed) ∨
      (∃ elapsed, op = .tick elapsed) ∨
      ∃ apiKeyId mcpSessionId entry, op = .get apiKeyId mcpSessionId ∧
        store.cache.lookup (ck apiKeyId mcpSessionId) = some entry ∧
        expired store.now entry = true ∧
        step numeric pinMax store op =
          { store with cache := pop store.cache (ck apiKeyId mcpSessionId) } := by
  cases op with
  | tick elapsed => exact .inr (.inl ⟨elapsed, rfl⟩)
  | setVersion apiKeyId odooVersion mcpSessionId =>
      simp only [Op.target] at target
      by_cases accepted : numeric apiKeyId = true
      · rw [if_pos accepted] at target
        cases target
      · refine .inl ⟨?_, nofun⟩
        simp only [step, setActiveVersionDb, if_neg accepted]
  | setProfile apiKeyId profileName mcpSessionId =>
      simp only [Op.target] at target
      by_cases accepted : numeric apiKeyId = true
      · rw [if_pos accepted] at target
        cases target
      · refine .inl ⟨?_, nofun⟩
        simp only [step, setActiveProfileDb, if_neg accepted]
  | get apiKeyId mcpSessionId =>
      simp only [step, getSessionState]
      by_cases accepted : numeric apiKeyId = true
      · rw [if_pos accepted]
        cases found : store.cache.lookup (ck apiKeyId mcpSessionId) with
        | none => exact .inl ⟨rfl, nofun⟩
        | some entry =>
            by_cases late : expired store.now entry = true
            · refine .inr (.inr ⟨apiKeyId, mcpSessionId, entry, rfl, found, late, ?_⟩)
              simp only [if_pos late]
            · refine .inl ⟨?_, nofun⟩
              simp only [if_neg late]
      · refine .inl ⟨?_, nofun⟩
        rw [if_neg accepted]

theorem written_setAt {now : Nat} {op : Op} {key : String} {found : Option CacheEntry}
    {entry : CacheEntry} (target : op.target numeric = some key)
    (written : op.written now found = some entry) : entry.setAt = now := by
  cases op with
  | tick | get => cases target
  | setVersion =>
      cases found with
      | none | some stored => cases written; rfl
  | setProfile apiKeyId profileName mcpSessionId =>
      cases found with
      | none =>
          cases profileName with
          | none => cases written
          | some name => cases written; rfl
      | some stored =>
          cases profileName with
          | none | some name => cases written; rfl

structure WellFormed (store : Store) : Prop where
  distinct : KeysDistinct store.cache
  ordered : store.cache.Pairwise fun first second => first.2.setAt ≤ second.2.setAt
  past : ∀ item ∈ store.cache, item.2.setAt ≤ store.now

theorem emptyStore_wellFormed : WellFormed emptyStore :=
  ⟨List.nodup_nil, List.Pairwise.nil, fun _ listed => absurd listed List.not_mem_nil⟩

theorem WellFormed.sublist {store : Store} {cache : List (String × CacheEntry)}
    (wf : WellFormed store) (fewer : cache.Sublist store.cache) :
    WellFormed { store with cache } :=
  ⟨wf.distinct.sublist (fewer.map Prod.fst), wf.ordered.sublist fewer,
    fun item listed => wf.past item (fewer.subset listed)⟩

theorem WellFormed.put {store : Store} (wf : WellFormed store) (key : String)
    {entry : CacheEntry} (atNow : entry.setAt = store.now) :
    WellFormed { store with cache := put store.cache key entry } where
  distinct := put_distinct key entry wf.distinct
  ordered := by
    have kept := @WellFormed.sublist store (pop store.cache key) wf List.filter_sublist
    refine List.pairwise_append.mpr ⟨kept.ordered, List.pairwise_singleton _ _, ?_⟩
    intro earlier listed last same
    rw [List.mem_singleton.mp same, atNow]
    exact kept.past earlier listed
  past := by
    intro item listed
    obtain earlier | last := List.mem_append.mp listed
    · exact wf.past item (List.filter_sublist.subset earlier)
    · cases List.mem_singleton.mp last
      exact Nat.le_of_eq atNow

theorem WellFormed.writeAt {store : Store} (wf : WellFormed store) {op : Op} {key : String}
    (target : op.target numeric = some key) :
    WellFormed { store with cache := writeAt pinMax store.now op store.cache key } := by
  simp only [SessionPins.writeAt]
  cases written : op.written store.now (store.cache.lookup key) with
  | none => exact wf
  | some entry =>
      exact (wf.put key (written_setAt numeric target written)).sublist
        (keepLast_suffix pinMax _).sublist

theorem step_wellFormed (store : Store) (op : Op) (wf : WellFormed store) :
    WellFormed (step numeric pinMax store op) := by
  cases target : op.target numeric with
  | some key =>
      rw [step_write numeric pinMax store target]
      exact wf.writeAt numeric pinMax target
  | none =>
      obtain ⟨same, -⟩ | ⟨elapsed, tick⟩ | ⟨apiKeyId, mcpSessionId, entry, -, -, -, dropped⟩ :=
        step_no_write numeric pinMax store target
      · rw [same]
        exact wf
      · rw [tick]
        exact ⟨wf.distinct, wf.ordered, fun item listed =>
          Nat.le_trans (wf.past item listed) (Nat.le_add_right store.now elapsed)⟩
      · rw [dropped]
        exact wf.sublist List.filter_sublist

end Operations

end OdooSemantic.Mcp.SessionPins
