import Mathlib.Algebra.Order.Ring.Rat
import OdooSemantic.Lib.Recency
import OdooSemantic.Lib.Run

/-!
# The resource cache

`ResourceCache` keeps bodies in an ordered dictionary: a hit or an overwrite moves its key to
the end, an expired entry goes when it is read, and a new key over the capacity pushes out the
first one.  The reference map instead numbers the uses of its keys.
-/

set_option autoImplicit false

namespace OdooSemantic.Mcp.ResourceCache

open Lib.OrderedDict Lib.Recency Lib.Run

structure CacheEntry where
  value : String
  mimeType : String
  fetchedAt : ℚ

/-- What the constructor lets through. -/
structure Limits where
  capacity : Nat
  ttl : ℚ
  room : 1 ≤ capacity
  lasting : 0 < ttl

/-- `(value, mime_type)`. -/
abbrev Body := String × String

def entryOf (body : Body) (now : ℚ) : CacheEntry := ⟨body.1, body.2, now⟩

abbrev Data := List (String × CacheEntry)

def get (limits : Limits) (data : Data) (key : String) (now : ℚ) : Data × Option Body :=
  match data.lookup key with
  | none => (data, none)
  | some entry =>
      if now - entry.fetchedAt > limits.ttl then (pop data key, none)
      else (moveToEnd data key, some (entry.value, entry.mimeType))

def put (limits : Limits) (data : Data) (key : String) (body : Body) (now : ℚ) : Data :=
  if (data.lookup key).isSome then assign (moveToEnd data key) key (entryOf body now)
  else keepLast limits.capacity (assign data key (entryOf body now))

/-- The operations a cache does under its lock. -/
structure Cache (State : Type) where
  get : State → String → ℚ → State × Option Body
  put : State → String → Body → ℚ → State
  clear : State

section Calls
variable {State Error : Type}

/-- `compute_fn` raises or returns a body and the reasons it is degraded for. -/
abbrev Compute (Error : Type) := Except Error (Body × List String)

def Cache.getOrCompute (cache : Cache State) (state : State) (key : String) (now : ℚ)
    (compute : Compute Error) (putNow : ℚ) : State × Except Error Body :=
  match cache.get state key now with
  | (got, some body) => (got, .ok body)
  | (got, none) =>
      match compute with
      | .error raised => (got, .error raised)
      | .ok (body, []) => (cache.put got key body putNow, .ok body)
      | .ok (body, _ :: _) => (got, .ok body)

inductive Call (Error : Type) where
  | get (key : String) (now : ℚ)
  | put (key : String) (body : Body) (now : ℚ)
  | clear
  | getOrCompute (key : String) (now : ℚ) (compute : Compute Error) (putNow : ℚ)

inductive Answer (Error : Type) where
  | read (body : Option Body)
  | none
  | computed (result : Except Error Body)

def Cache.call (cache : Cache State) (state : State) : Call Error → State × Answer Error
  | .get key now => ((cache.get state key now).1, .read (cache.get state key now).2)
  | .put key body now => (cache.put state key body now, .none)
  | .clear => (cache.clear, .none)
  | .getOrCompute key now compute putNow =>
      ((cache.getOrCompute state key now compute putNow).1,
        .computed (cache.getOrCompute state key now compute putNow).2)

def Cache.stores (cache : Cache State) (state : State) : Call Error → List (String × CacheEntry)
  | .put key body now => [(key, entryOf body now)]
  | .getOrCompute key now (.ok (body, [])) putNow =>
      match (cache.get state key now).2 with
      | none => [(key, entryOf body putNow)]
      | some _ => []
  | _ => []

structure Ran (State Error : Type) where
  held : State
  answers : List (Answer Error)
  puts : List (String × CacheEntry)

def Cache.start (cache : Cache State) : Ran State Error := ⟨cache.clear, [], []⟩

def Cache.step (cache : Cache State) (ran : Ran State Error) (call : Call Error) :
    Ran State Error where
  held := (cache.call ran.held call).1
  answers := ran.answers ++ [(cache.call ran.held call).2]
  puts := ran.puts ++ cache.stores ran.held call

end Calls

def resourceCache (limits : Limits) : Cache Data where
  get := get limits
  put := put limits
  clear := []

/-- The reference map: entries by key, each with its last use. -/
noncomputable def reference (limits : Limits) : Cache (Used String CacheEntry) where
  get used key now :=
    match used.read key with
    | none => (used, none)
    | some entry =>
        if now - entry.fetchedAt > limits.ttl then (used.drop key, none)
        else (used.use key entry, some (entry.value, entry.mimeType))
  put used key body now := (used.use key (entryOf body now)).evict limits.capacity
  clear := unused

def latestPut (puts : List (String × CacheEntry)) (key : String) : Option CacheEntry :=
  puts.reverse.lookup key

section Simulation
variable {State Other Error : Type} {cache : Cache State} {other : Cache Other}
  {related : State → Other → Prop}

/-- The operations keep the relation and answer the same. -/
structure Simulates (cache : Cache State) (other : Cache Other)
    (related : State → Other → Prop) : Prop where
  get : ∀ {state seen}, related state seen → ∀ key now,
    related (cache.get state key now).1 (other.get seen key now).1 ∧
      (cache.get state key now).2 = (other.get seen key now).2
  put : ∀ {state seen}, related state seen → ∀ key body now,
    related (cache.put state key body now) (other.put seen key body now)
  clear : related cache.clear other.clear

theorem Simulates.getOrCompute (simulates : Simulates cache other related) {state : State}
    {seen : Other} (before : related state seen) (key : String) (now : ℚ)
    (compute : Compute Error) (putNow : ℚ) :
    related (cache.getOrCompute state key now compute putNow).1
        (other.getOrCompute seen key now compute putNow).1 ∧
      (cache.getOrCompute state key now compute putNow).2 =
        (other.getOrCompute seen key now compute putNow).2 := by
  obtain ⟨after, same⟩ := simulates.get before key now
  unfold Cache.getOrCompute
  generalize cache.get state key now = result at after same ⊢
  generalize other.get seen key now = resultSeen at after same ⊢
  rcases result with ⟨got, hit⟩
  rcases resultSeen with ⟨gotSeen, hitSeen⟩
  dsimp only at after same
  subst same
  cases hit with
  | some body => exact ⟨after, rfl⟩
  | none =>
      match compute with
      | .error raised => exact ⟨after, rfl⟩
      | .ok (body, []) => exact ⟨simulates.put after key body putNow, rfl⟩
      | .ok (body, _ :: _) => exact ⟨after, rfl⟩

theorem Simulates.call (simulates : Simulates cache other related) {state : State}
    {seen : Other} (before : related state seen) (call : Call Error) :
    related (cache.call state call).1 (other.call seen call).1 ∧
      (cache.call state call).2 = (other.call seen call).2 := by
  cases call with
  | get key now =>
      obtain ⟨after, same⟩ := simulates.get before key now
      exact ⟨after, congrArg Answer.read same⟩
  | put key body now => exact ⟨simulates.put before key body now, rfl⟩
  | clear => exact ⟨simulates.clear, rfl⟩
  | getOrCompute key now compute putNow =>
      obtain ⟨after, same⟩ := simulates.getOrCompute before key now compute putNow
      exact ⟨after, congrArg Answer.computed same⟩

theorem Simulates.run (simulates : Simulates cache other related) (calls : List (Call Error)) :
    related (run cache.step cache.start calls).held (run other.step other.start calls).held ∧
      (run cache.step cache.start calls).answers = (run other.step other.start calls).answers := by
  induction calls using List.reverseRecOn with
  | nil => exact ⟨simulates.clear, rfl⟩
  | append_singleton earlier call ih =>
      obtain ⟨before, answered⟩ := ih
      obtain ⟨after, same⟩ := simulates.call before call
      rw [run_append, run_append]
      refine ⟨after, ?_⟩
      have snoc := congrArg₂ (fun answers answer => answers ++ [answer]) answered same
      exact snoc

end Simulation

section Refinement
variable {limits : Limits} {data : Data} {used : Used String CacheEntry}
  {key asked : String} {body : Body} {now : ℚ} {entry : CacheEntry} {Error : Type}

/-- The dictionary follows the map within the capacity. -/
def Mirrors (limits : Limits) (data : Data) (used : Used String CacheEntry) : Prop :=
  Follows data used ∧ data.length ≤ limits.capacity

theorem put_overwrites (found : data.lookup key = some entry) :
    put limits data key body now = Lib.OrderedDict.put data key (entryOf body now) := by
  have isSome : (data.lookup key).isSome = true := by
    rw [found]
    rfl
  rw [put, if_pos isSome, assign_moved _ found]

theorem put_inserts (absent : data.lookup key = none) :
    put limits data key body now =
      keepLast limits.capacity (Lib.OrderedDict.put data key (entryOf body now)) := by
  have notSome : ¬ (data.lookup key).isSome = true := by
    rw [absent]
    exact Bool.false_ne_true
  rw [put, if_neg notSome, assign_of_absent _ absent]

theorem put_length_le (data : Data) (key : String) (entry : CacheEntry) :
    (Lib.OrderedDict.put data key entry).length ≤ data.length + 1 ∧
      (data.lookup key ≠ none → (Lib.OrderedDict.put data key entry).length ≤ data.length) := by
  rw [Lib.OrderedDict.put, List.length_append, List.length_singleton]
  constructor
  · exact Nat.succ_le_succ (List.length_filter_le _ data)
  · intro live
    obtain ⟨old, found⟩ := Option.ne_none_iff_exists'.mp live
    refine List.length_filter_lt_length_iff_exists.mpr ⟨(key, old), lookup_mem found, ?_⟩
    rw [decide_eq_false (fun differs => differs rfl)]
    exact Bool.false_ne_true

theorem Mirrors.get (mirrors : Mirrors limits data used) (key : String) (now : ℚ) :
    Mirrors limits (get limits data key now).1 ((reference limits).get used key now).1 ∧
      (ResourceCache.get limits data key now).2 = ((reference limits).get used key now).2 := by
  obtain ⟨follows, bounded⟩ := mirrors
  unfold ResourceCache.get reference
  dsimp only
  rw [← follows.reads key]
  cases found : data.lookup key with
  | none => exact ⟨⟨follows, bounded⟩, rfl⟩
  | some entry =>
      dsimp only
      split
      · have popped : (pop data key).length ≤ data.length := List.length_filter_le _ data
        exact ⟨⟨follows.drop key, le_trans popped bounded⟩, rfl⟩
      · have moved := (put_length_le data key entry).2 (by rw [found]; exact Option.some_ne_none _)
        refine ⟨⟨?_, ?_⟩, rfl⟩
        · rw [moveToEnd_of_found found]
          exact follows.use key entry
        · rw [moveToEnd_of_found found]
          exact le_trans moved bounded

theorem Mirrors.put (mirrors : Mirrors limits data used) (key : String) (body : Body)
    (now : ℚ) :
    Mirrors limits (put limits data key body now) ((reference limits).put used key body now) := by
  obtain ⟨follows, bounded⟩ := mirrors
  have written := follows.use key (entryOf body now)
  have lengths := put_length_le data key (entryOf body now)
  have evicted : Follows (keepLast limits.capacity (Lib.OrderedDict.put data key (entryOf body now)))
      ((used.use key (entryOf body now)).evict limits.capacity) := written.evict (by omega)
  cases found : data.lookup key with
  | none =>
      rw [put_inserts found]
      exact ⟨evicted, keepLast_length_le limits.capacity _⟩
  | some entry =>
      have fits : (Lib.OrderedDict.put data key (entryOf body now)).length ≤ limits.capacity :=
        le_trans (lengths.2 (by rw [found]; exact Option.some_ne_none _)) bounded
      rw [keepLast, Nat.sub_eq_zero_of_le fits, List.drop_zero] at evicted
      rw [put_overwrites found]
      exact ⟨evicted, fits⟩

theorem get_keeps (found : (get limits data key now).1.lookup asked = some entry) :
    data.lookup asked = some entry := by
  unfold get at found
  cases read : data.lookup key with
  | none =>
      rw [read] at found
      exact found
  | some old =>
      rw [read] at found
      dsimp only at found
      split at found
      · rw [lookup_pop] at found
        split at found
        · cases found
        · exact found
      · rw [moveToEnd_of_found read, lookup_put] at found
        split at found
        · rename_i same
          rw [same, read, found]
        · exact found

theorem put_keeps (distinct : KeysDistinct data)
    (found : (put limits data key body now).lookup asked = some entry) :
    asked = key ∧ entry = entryOf body now ∨ asked ≠ key ∧ data.lookup asked = some entry := by
  have written : (Lib.OrderedDict.put data key (entryOf body now)).lookup asked = some entry := by
    cases read : data.lookup key with
    | some old => rwa [put_overwrites read] at found
    | none =>
        rw [put_inserts read] at found
        obtain gone | same := lookup_sublist (keepLast_suffix limits.capacity _).sublist
          (put_distinct key (entryOf body now) distinct) asked
        · rw [found] at gone
          cases gone
        · rwa [same] at found
  rw [lookup_put] at written
  split at written
  · rename_i same
    exact .inl ⟨same, (Option.some.inj written).symm⟩
  · rename_i differs
    exact .inr ⟨differs, written⟩

def HoldsLatest (data : Data) (puts : List (String × CacheEntry)) : Prop :=
  ∀ key entry, data.lookup key = some entry → latestPut puts key = some entry

theorem latestPut_snoc (puts : List (String × CacheEntry)) (key asked : String)
    (entry : CacheEntry) :
    latestPut (puts ++ [(key, entry)]) asked =
      if asked = key then some entry else latestPut puts asked := by
  rw [latestPut, List.reverse_append, List.reverse_singleton, List.singleton_append,
    lookup_cons_if]
  rfl

theorem HoldsLatest.get {puts : List (String × CacheEntry)} (latest : HoldsLatest data puts)
    (limits : Limits) (key : String) (now : ℚ) : HoldsLatest (get limits data key now).1 puts :=
  fun asked entry found => latest asked entry (get_keeps found)

theorem HoldsLatest.put {puts : List (String × CacheEntry)} (latest : HoldsLatest data puts)
    (distinct : KeysDistinct data) (limits : Limits) (key : String) (body : Body) (now : ℚ) :
    HoldsLatest (put limits data key body now) (puts ++ [(key, entryOf body now)]) := by
  intro asked entry found
  rw [latestPut_snoc]
  obtain ⟨same, new⟩ | ⟨differs, old⟩ := put_keeps distinct found
  · rw [if_pos same, new]
  · rw [if_neg differs]
    exact latest asked entry old

theorem HoldsLatest.call {puts : List (String × CacheEntry)} (latest : HoldsLatest data puts)
    (mirrors : Mirrors limits data used) (call : Call Error) :
    HoldsLatest ((resourceCache limits).call data call).1
      (puts ++ (resourceCache limits).stores data call) := by
  cases call with
  | get key now =>
      have none : (resourceCache limits).stores data (Call.get key now : Call Error) = [] := rfl
      rw [none, List.append_nil]
      exact latest.get limits key now
  | put key body now => exact latest.put mirrors.1.distinct limits key body now
  | clear =>
      intro key entry found
      cases found
  | getOrCompute key now compute putNow =>
      have got := latest.get limits key now
      have distinct := (mirrors.get key now).1.1.distinct
      unfold Cache.call Cache.getOrCompute resourceCache
      match compute with
      | .error raised | .ok (_, _ :: _) =>
          unfold Cache.stores
          rw [List.append_nil]
          dsimp only
          generalize ResourceCache.get limits data key now = result at got ⊢
          rcases result with ⟨after, hit⟩
          cases hit with
          | some body | none => exact got
      | .ok (fresh, []) =>
          unfold Cache.stores
          dsimp only
          generalize ResourceCache.get limits data key now = result at got distinct ⊢
          rcases result with ⟨after, hit⟩
          cases hit with
          | some body =>
              dsimp only at got ⊢
              rwa [List.append_nil]
          | none => exact got.put distinct limits key fresh putNow

end Refinement

end OdooSemantic.Mcp.ResourceCache
