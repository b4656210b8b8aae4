import OdooSemantic.Lib.Decimal
import OdooSemantic.Lib.OrderedDict
import OdooSemantic.Lib.Py
import OdooSemantic.Lib.Run
import Mathlib.Data.Prod.Lex
import Mathlib.Data.String.Basic
import Mathlib.Tactic.Linarith

/-!
# Short references for listed items

`RefMinter` hands out a short reference for each item of a listing and gives the item back for
it.  A reference is kept for the TTL after it was last handed out.  An item that is listed again
is known by a hash of its values as texts.
-/

set_option autoImplicit false

namespace OdooSemantic.Mcp.Refs

open Lib.Run Lib.OrderedDict Lib.Py
open Lib.Decimal (asciiDecimals)

/-- A dict at its address (`id`). -/
structure Item (Value : Type) where
  address : Int
  entries : List (String × Value)
  deriving DecidableEq

/-- What the minter takes from Python: `str` (which may raise), `hash`, `repr` and the `repr` of a
set, and its own TTL. -/
structure Env (Value : Type) where
  str : Value → Option String
  hash : List (String × String) → Int
  repr : String → String
  reprSet : List String → String
  ttl : ℚ

section Items
variable {Value : Type}

/-- `==` on dicts. -/
def Item.Same (item other : Item Value) : Prop :=
  ∀ key, item.entries.lookup key = other.entries.lookup key

theorem Item.Same.refl (item : Item Value) : item.Same item := fun _ => rfl

theorem Item.Same.symm {item other : Item Value} (same : item.Same other) : other.Same item :=
  fun key => (same key).symm

theorem Item.Same.trans {item other third : Item Value} (first : item.Same other)
    (second : other.Same third) : item.Same third :=
  fun key => (first key).trans (second key)

def Item.keys (item : Item Value) : List String := item.entries.map Prod.fst

def Item.sameAs [DecidableEq Value] (item other : Item Value) : Bool :=
  (item.keys ++ other.keys).all fun key => item.entries.lookup key == other.entries.lookup key

theorem Item.lookup_absent {item : Item Value} {key : String} (absent : key ∉ item.keys) :
    item.entries.lookup key = none := by
  cases found : item.entries.lookup key with
  | none => rfl
  | some value => exact absurd (List.mem_map_of_mem (f := Prod.fst) (lookup_mem found)) absent

theorem Item.sameAs_iff [DecidableEq Value] {item other : Item Value} :
    item.sameAs other = true ↔ item.Same other := by
  simp only [Item.sameAs, List.all_eq_true, beq_iff_eq]
  constructor
  · intro agree key
    by_cases listed : key ∈ item.keys ++ other.keys
    · exact agree key listed
    · rw [List.mem_append, not_or] at listed
      rw [Item.lookup_absent listed.1, Item.lookup_absent listed.2]
  · intro same key _
    exact same key

/-- `_canonical_hash`: where a value has no text the address stands for the dict. -/
def canonicalHash (env : Env Value) (item : Item Value) : Int :=
  match item.entries.mapM fun entry => (env.str entry.2).map fun text => (entry.1, text) with
  | some texts => env.hash (sortedBy (fun text => toLex (text.1, text.2)) texts)
  | none => item.address

end Items

def maxItemsPerCall : Nat := 1000

def leadByKind : List (String × String) :=
  [("field", "f"), ("method", "m"), ("view", "v"), ("pattern", "p"), ("module", "x")]

def kindDetector : List (String × String) :=
  [("field_name", "field"), ("method_name", "method"), ("xmlid", "view"),
    ("pattern_name", "pattern"), ("module_name", "module")]

structure Entry (Value : Type) where
  canonical : Item Value
  expiresAt : ℚ

structure TenantStore (Value : Type) where
  refs : List (String × Entry Value)
  nextId : List (String × Nat)
  hashToRef : List (Int × String)

def TenantStore.empty {Value : Type} : TenantStore Value := ⟨[], [], []⟩

/-- `RefError`: the message and the recovery hint. -/
structure RefError where
  message : String
  recoveryHint : String

section Store
variable {Value : Type} (env : Env Value)

def inferKind (item : Item Value) : Except String String :=
  match kindDetector.find? fun detector => item.keys.contains detector.1 with
  | some detector => .ok detector.2
  | none => .error ("kind='auto' but item shape is ambiguous — cannot infer kind from keys " ++
      env.reprSet item.keys ++
      ". Pass kind= explicitly (one of: 'field', 'method', 'view', 'pattern', 'module').")

def leadOf (kind : String) (item : Item Value) : Except String String :=
  match if kind = "auto" then inferKind env item else .ok kind with
  | .error message => .error message
  | .ok effectiveKind =>
      match leadByKind.lookup effectiveKind with
      | some lead => .ok lead
      | none => .error ("Unknown kind " ++ env.repr effectiveKind ++
          ". Valid kinds: ['field', 'method', 'view', 'pattern', 'module']")

def refId (lead : String) (counter : Nat) : String :=
  String.ofList (lead.toList ++ Nat.toDigits 10 counter)

def evictExpired (store : TenantStore Value) (now : ℚ) : TenantStore Value :=
  let refs := store.refs.filter fun item => !decide (item.2.expiresAt ≤ now)
  { store with
    refs
    hashToRef := store.hashToRef.filter fun item => (refs.lookup item.2).isSome }

def mintNew (now : ℚ) (store : TenantStore Value) (item : Item Value) (lead : String) :
    TenantStore Value × String :=
  let counter := (store.nextId.lookup lead).getD 1
  let ref := refId lead counter
  ({ refs := assign store.refs ref ⟨item, now + env.ttl⟩
     nextId := assign store.nextId lead (counter + 1)
     hashToRef := assign store.hashToRef (canonicalHash env item) ref }, ref)

def known (store : TenantStore Value) (item : Item Value) : Option (String × Entry Value) :=
  (store.hashToRef.lookup (canonicalHash env item)).bind fun ref =>
    (store.refs.lookup ref).map fun entry => (ref, entry)

def mintOne (now : ℚ) (kind : String) (store : TenantStore Value) (item : Item Value) :
    TenantStore Value × Except String String :=
  match leadOf env kind item with
  | .error message => (store, .error message)
  | .ok lead =>
      match known env store item with
      | some (ref, entry) =>
          if now < entry.expiresAt then
            ({ store with refs := assign store.refs ref { entry with expiresAt := now + env.ttl } },
              .ok ref)
          else
            let minted := mintNew env now
              { store with hashToRef := pop store.hashToRef (canonicalHash env item) } item lead
            (minted.1, .ok minted.2)
      | none =>
          let minted := mintNew env now store item lead
          (minted.1, .ok minted.2)

/-- The loop of `mint` from an index on; an item whose kind is not known ends it. -/
def mintFrom (now : ℚ) (kind : String) :
    Nat → List (Item Value) → TenantStore Value → TenantStore Value × Except String (List String)
  | _, [], store => (store, .ok [])
  | idx, item :: rest, store =>
      if maxItemsPerCall ≤ idx then
        let others := mintFrom now kind (idx + 1) rest store
        (others.1, others.2.map ("exhausted" :: ·))
      else
        match mintOne env now kind store item with
        | (store, .error message) => (store, .error message)
        | (store, .ok ref) =>
            let others := mintFrom now kind (idx + 1) rest store
            (others.1, others.2.map (ref :: ·))

abbrev Stores (Value : Type) := List (String × TenantStore Value)

def mint (stores : Stores Value) (items : List (Item Value)) (apiKeyId kind : String) (now : ℚ) :
    Stores Value × Except String (List String) :=
  let minted := mintFrom env now kind 0 items
    (evictExpired ((stores.lookup apiKeyId).getD .empty) now)
  (assign stores apiKeyId minted.1, minted.2)

def resolve (stores : Stores Value) (ref apiKeyId : String) (now : ℚ) :
    Stores Value × Except RefError (Item Value) :=
  match stores.lookup apiKeyId with
  | none => (stores, .error
      ⟨"Ref " ++ env.repr ref ++ " not found — no refs minted for this API key.",
        "Ref " ++ env.repr ref ++ " not found — re-run the list_* call that minted it."⟩)
  | some store =>
      let store := evictExpired store now
      (assign stores apiKeyId store,
        match store.refs.lookup ref with
        | none => .error ⟨"Ref " ++ env.repr ref ++ " not found or expired.",
            "Ref " ++ env.repr ref ++ " expired or was never minted for this session — " ++
              "re-run the list_* call that minted it to get fresh refs."⟩
        | some entry => .ok entry.canonical)

end Store

structure Returned (Value : Type) where
  apiKeyId : String
  ref : String
  item : Item Value
  givenAt : ℚ
  deriving DecidableEq

/-- The minter, with what was returned and what was brought to `mint`. -/
structure State (Value : Type) where
  now : ℚ
  stores : Stores Value
  returned : List (Returned Value)
  brought : List (String × Item Value)

inductive Event (Value : Type) where
  | mint (items : List (Item Value)) (apiKeyId kind : String)
  | resolve (ref apiKeyId : String)
  | wait (elapsed : NNRat)

section Calls
variable {Value : Type} (env : Env Value)

def answered (apiKeyId : String) (now : ℚ) (items : List (Item Value)) :
    Except String (List String) → List (Returned Value)
  | .error _ => []
  | .ok refs => ((items.take maxItemsPerCall).zip refs).map fun pair =>
      ⟨apiKeyId, pair.2, pair.1, now⟩

def step (state : State Value) : Event Value → State Value
  | .mint items apiKeyId kind =>
      let minted := mint env state.stores items apiKeyId kind state.now
      { state with
        stores := minted.1
        returned := state.returned ++ answered apiKeyId state.now items minted.2
        brought := state.brought ++ items.map fun item => (apiKeyId, item) }
  | .resolve ref apiKeyId =>
      { state with stores := (resolve env state.stores ref apiKeyId state.now).1 }
  | .wait elapsed => { state with now := state.now + elapsed }

def start (now : ℚ) : State Value := ⟨now, [], [], []⟩

def State.resolves (state : State Value) (ref apiKeyId : String) (item : Item Value) : Prop :=
  (resolve env state.stores ref apiKeyId state.now).2 = .ok item

/-- The reference was returned less than the TTL ago. -/
def State.live (state : State Value) (ref apiKeyId : String) : Prop :=
  ∃ last ∈ state.returned, last.apiKeyId = apiKeyId ∧ last.ref = ref ∧
    state.now < last.givenAt + env.ttl

structure Promises (state : State Value) : Prop where
  round : ∀ given ∈ state.returned, state.live env given.ref given.apiKeyId →
    ∃ item, state.resolves env given.ref given.apiKeyId item ∧ item.Same given.item
  distinct : ∀ given ∈ state.returned, ∀ other ∈ state.returned,
    state.live env given.ref given.apiKeyId → state.live env other.ref other.apiKeyId →
      given.apiKeyId = other.apiKeyId → given.ref = other.ref → given.item.Same other.item
  own : ∀ ref apiKeyId item, state.resolves env ref apiKeyId item →
    (apiKeyId, item) ∈ state.brought

def reached (kind : String) (items : List (Item Value)) : List (Item Value) :=
  (items.take maxItemsPerCall).takeWhile fun item => (leadOf env kind item).toBool

def held (state : State Value) (apiKeyId : String) : List (Item Value) :=
  (evictExpired ((state.stores.lookup apiKeyId).getD .empty) state.now).refs.map (·.2.canonical)

/-- No item a call gets to has the hash of another item of the call or of one that the key has a
live reference for. -/
def unconfused [DecidableEq Value] (state : State Value) : Event Value → Bool
  | .mint items apiKeyId kind =>
      (reached env kind items).all fun item =>
        (reached env kind items ++ held state apiKeyId).all fun other =>
          canonicalHash env item != canonicalHash env other || item.sameAs other
  | _ => true

end Calls

def leads : List String := leadByKind.map Prod.snd

theorem leadOf_mem {Value : Type} {env : Env Value} {kind lead : String} {item : Item Value}
    (found : leadOf env kind item = .ok lead) : lead ∈ leads := by
  unfold leadOf at found
  cases inferred : if kind = "auto" then inferKind env item else Except.ok kind with
  | error message =>
      rw [inferred] at found
      cases found
  | ok effectiveKind =>
      rw [inferred] at found
      cases listed : leadByKind.lookup effectiveKind with
      | none =>
          simp only [listed] at found
          cases found
      | some known =>
          simp only [listed, Except.ok.injEq] at found
          rw [← found]
          exact List.mem_map_of_mem (f := Prod.snd) (lookup_mem listed)

theorem toDigits_inj {counter number : Nat}
    (same : Nat.toDigits 10 counter = Nat.toDigits 10 number) : counter = number := by
  have read := asciiDecimals.number_toDigits counter
  rw [same, asciiDecimals.number_toDigits] at read
  exact (Option.some.inj read).symm

/-- The letter of a reference and its number can be read back. -/
theorem refId_inj {lead other : String} (isLead : lead ∈ leads) (isOther : other ∈ leads)
    {counter number : Nat} (same : refId lead counter = refId other number) :
    lead = other ∧ counter = number := by
  have chars : lead.toList ++ Nat.toDigits 10 counter = other.toList ++ Nat.toDigits 10 number :=
    String.ofList_injective same
  have single : ∀ text ∈ leads, text.toList.length = 1 := by decide
  have lengths : lead.toList.length = other.toList.length :=
    (single lead isLead).trans (single other isOther).symm
  obtain ⟨first, rest⟩ := List.append_inj chars lengths
  exact ⟨String.toList_inj.mp first, toDigits_inj rest⟩

section Store
variable {Value : Type} {env : Env Value} {store : TenantStore Value} {now : ℚ}

/-- The counters are past the reference. -/
def TenantStore.Allocated (store : TenantStore Value) (ref : String) : Prop :=
  ∃ lead ∈ leads, ∃ counter, counter < (store.nextId.lookup lead).getD 1 ∧
    ref = refId lead counter

theorem fresh_refId {lead : String} (isLead : lead ∈ leads) :
    ¬ store.Allocated (refId lead ((store.nextId.lookup lead).getD 1)) := by
  rintro ⟨other, isOther, counter, before, same⟩
  obtain ⟨rfl, number⟩ := refId_inj isLead isOther same
  omega

/-- What holds of the store of a key: `told` are the references it was given for items and when,
`brought` the items it may hold. -/
structure StoreInv (env : Env Value) (now : ℚ) (store : TenantStore Value)
    (told : String → Item Value → ℚ → Prop) (brought : Item Value → Prop) : Prop where
  distinct : KeysDistinct store.refs
  refs : ∀ ref entry, store.refs.lookup ref = some entry → store.Allocated ref
  hashes : ∀ pair ∈ store.hashToRef, store.Allocated pair.2
  indexed : ∀ pair ∈ store.hashToRef, ∀ entry, store.refs.lookup pair.2 = some entry →
    canonicalHash env entry.canonical = pair.1
  past : ∀ ref item givenAt, told ref item givenAt → store.Allocated ref ∧ givenAt ≤ now
  same : ∀ ref item givenAt, told ref item givenAt → ∀ entry, store.refs.lookup ref = some entry →
    entry.canonical.Same item
  alive : ∀ ref item givenAt, told ref item givenAt → now < givenAt + env.ttl →
    ∃ entry, store.refs.lookup ref = some entry ∧ givenAt + env.ttl ≤ entry.expiresAt
  own : ∀ ref entry, store.refs.lookup ref = some entry → brought entry.canonical

variable {told : String → Item Value → ℚ → Prop} {brought : Item Value → Prop}

theorem storeInv_empty (brought : Item Value → Prop) :
    StoreInv env now .empty (fun _ _ _ => False) brought where
  distinct := List.nodup_nil
  refs _ _ found := by cases found
  hashes _ member := by cases member
  indexed _ member := by cases member
  past _ _ _ none := none.elim
  same _ _ _ none := none.elim
  alive _ _ _ none := none.elim
  own _ _ found := by cases found

theorem StoreInv.weaken (inv : StoreInv env now store told brought)
    {fewer : String → Item Value → ℚ → Prop} {more : Item Value → Prop}
    (kept : ∀ ref item givenAt, fewer ref item givenAt → told ref item givenAt)
    (wider : ∀ ref entry, store.refs.lookup ref = some entry → brought entry.canonical →
      more entry.canonical) :
    StoreInv env now store fewer more where
  distinct := inv.distinct
  refs := inv.refs
  hashes := inv.hashes
  indexed := inv.indexed
  past ref item givenAt given := inv.past ref item givenAt (kept ref item givenAt given)
  same ref item givenAt given := inv.same ref item givenAt (kept ref item givenAt given)
  alive ref item givenAt given := inv.alive ref item givenAt (kept ref item givenAt given)
  own ref entry found := wider ref entry found (inv.own ref entry found)

theorem StoreInv.later (inv : StoreInv env now store told brought) {later : ℚ}
    (after : now ≤ later) : StoreInv env later store told brought where
  distinct := inv.distinct
  refs := inv.refs
  hashes := inv.hashes
  indexed := inv.indexed
  past ref item givenAt given :=
    ⟨(inv.past ref item givenAt given).1, le_trans (inv.past ref item givenAt given).2 after⟩
  same := inv.same
  alive ref item givenAt given before :=
    inv.alive ref item givenAt given (lt_of_le_of_lt after before)
  own := inv.own

theorem lookup_evict (distinct : KeysDistinct store.refs) {ref : String} {entry : Entry Value} :
    (evictExpired store now).refs.lookup ref = some entry ↔
      store.refs.lookup ref = some entry ∧ now < entry.expiresAt := by
  rw [evictExpired, lookup_filter _ ref distinct, Option.filter_eq_some_iff]
  simp only [Bool.not_eq_true', decide_eq_false_iff_not, not_le]

theorem StoreInv.evict (inv : StoreInv env now store told brought) :
    StoreInv env now (evictExpired store now) told brought where
  distinct := inv.distinct.sublist (List.filter_sublist.map Prod.fst)
  refs ref entry found := inv.refs ref entry ((lookup_evict inv.distinct).mp found).1
  hashes pair member := inv.hashes pair (List.mem_filter.mp member).1
  indexed pair member entry found :=
    inv.indexed pair (List.mem_filter.mp member).1 entry ((lookup_evict inv.distinct).mp found).1
  past := inv.past
  same ref item givenAt given entry found :=
    inv.same ref item givenAt given entry ((lookup_evict inv.distinct).mp found).1
  alive ref item givenAt given before := by
    obtain ⟨entry, found, expires⟩ := inv.alive ref item givenAt given before
    exact ⟨entry, (lookup_evict inv.distinct).mpr ⟨found, lt_of_lt_of_le before expires⟩, expires⟩
  own ref entry found := inv.own ref entry ((lookup_evict inv.distinct).mp found).1

theorem StoreInv.unindex (inv : StoreInv env now store told brought) (hash : Int) :
    StoreInv env now { store with hashToRef := pop store.hashToRef hash } told brought where
  distinct := inv.distinct
  refs := inv.refs
  hashes pair member := inv.hashes pair (List.mem_filter.mp member).1
  indexed pair member := inv.indexed pair (List.mem_filter.mp member).1
  past := inv.past
  same := inv.same
  alive := inv.alive
  own := inv.own

def withAnswer (told : String → Item Value → ℚ → Prop) (ref : String) (item : Item Value)
    (now : ℚ) : String → Item Value → ℚ → Prop :=
  fun other asked givenAt => told other asked givenAt ∨ other = ref ∧ asked = item ∧ givenAt = now

theorem StoreInv.refresh (inv : StoreInv env now store told brought) {ref : String}
    {entry : Entry Value} {item : Item Value} (found : store.refs.lookup ref = some entry)
    (isItem : entry.canonical.Same item) :
    StoreInv env now
      { store with refs := assign store.refs ref { entry with expiresAt := now + env.ttl } }
      (withAnswer told ref item now) brought := by
  have reads : ∀ other last,
      (assign store.refs ref { entry with expiresAt := now + env.ttl }).lookup other = some last →
        ∃ known, store.refs.lookup other = some known ∧ last.canonical = known.canonical := by
    intro other last isLast
    rw [lookup_assign] at isLast
    by_cases isRef : other = ref
    · rw [if_pos isRef] at isLast
      cases isLast
      exact ⟨entry, isRef ▸ found, rfl⟩
    · rw [if_neg isRef] at isLast
      exact ⟨last, isLast, rfl⟩
  refine ⟨assign_distinct _ _ inv.distinct, ?_, inv.hashes, ?_, ?_, ?_, ?_, ?_⟩
  · intro other last isLast
    obtain ⟨known, isKnown, -⟩ := reads other last isLast
    exact inv.refs other known isKnown
  · intro pair member last isLast
    obtain ⟨known, isKnown, canonical⟩ := reads pair.2 last isLast
    rw [canonical]
    exact inv.indexed pair member known isKnown
  · rintro other asked givenAt (old | ⟨rfl, rfl, rfl⟩)
    · exact inv.past other asked givenAt old
    · exact ⟨inv.refs other entry found, le_refl _⟩
  · rintro other asked givenAt given last isLast
    obtain ⟨known, isKnown, canonical⟩ := reads other last isLast
    rw [canonical]
    rcases given with old | ⟨rfl, rfl, rfl⟩
    · exact inv.same other asked givenAt old known isKnown
    · rw [found] at isKnown
      cases isKnown
      exact isItem
  · rintro other asked givenAt given before
    simp only [lookup_assign]
    by_cases isRef : other = ref
    · rw [if_pos isRef]
      have past : givenAt ≤ now := by
        rcases given with old | ⟨-, -, rfl⟩
        · exact (inv.past other asked givenAt old).2
        · exact le_refl _
      exact ⟨_, rfl, by linarith⟩
    · rw [if_neg isRef]
      rcases given with old | ⟨isRef', -, -⟩
      · exact inv.alive other asked givenAt old before
      · exact absurd isRef' isRef
  · intro other last isLast
    obtain ⟨known, isKnown, canonical⟩ := reads other last isLast
    rw [canonical]
    exact inv.own other known isKnown

theorem TenantStore.Allocated.mono {other : TenantStore Value} {ref : String}
    (allocated : store.Allocated ref)
    (grows : ∀ lead, (store.nextId.lookup lead).getD 1 ≤ (other.nextId.lookup lead).getD 1) :
    other.Allocated ref := by
  obtain ⟨lead, isLead, counter, before, same⟩ := allocated
  exact ⟨lead, isLead, counter, lt_of_lt_of_le before (grows lead), same⟩

theorem StoreInv.mintNew (inv : StoreInv env now store told brought) {item : Item Value}
    {lead : String} (isLead : lead ∈ leads) (isBrought : brought item) :
    StoreInv env now (mintNew env now store item lead).1
      (withAnswer told (mintNew env now store item lead).2 item now) brought := by
  have fresh : ¬ store.Allocated _ := fresh_refId isLead
  have grows : ∀ other, (store.nextId.lookup other).getD 1 ≤
      ((Refs.mintNew env now store item lead).1.nextId.lookup other).getD 1 := by
    intro other
    simp only [Refs.mintNew, lookup_assign]
    by_cases isOther : other = lead
    · rw [if_pos isOther, isOther, Option.getD_some]
      exact Nat.le_succ _
    · rw [if_neg isOther]
  have allocatedNew : (Refs.mintNew env now store item lead).1.Allocated
      (refId lead ((store.nextId.lookup lead).getD 1)) := by
    refine ⟨lead, isLead, _, ?_, rfl⟩
    simp only [Refs.mintNew, lookup_assign, if_pos, Option.getD_some]
    exact Nat.lt_succ_self _
  have reads : ∀ other last,
      (Refs.mintNew env now store item lead).1.refs.lookup other = some last →
        (other = refId lead ((store.nextId.lookup lead).getD 1) ∧
          last = ⟨item, now + env.ttl⟩) ∨ store.refs.lookup other = some last := by
    intro other last isLast
    simp only [Refs.mintNew, lookup_assign] at isLast
    by_cases isNew : other = refId lead ((store.nextId.lookup lead).getD 1)
    · rw [if_pos isNew] at isLast
      exact Or.inl ⟨isNew, (Option.some.inj isLast).symm⟩
    · rw [if_neg isNew] at isLast
      exact Or.inr isLast
  refine ⟨assign_distinct _ _ inv.distinct, ?_, ?_, ?_, ?_, ?_, ?_, ?_⟩
  · intro other last isLast
    rcases reads other last isLast with ⟨isNew, -⟩ | old
    · rw [isNew]
      exact allocatedNew
    · exact (inv.refs other last old).mono grows
  · intro pair member
    rcases mem_assign member with isNew | old
    · rw [isNew]
      exact allocatedNew
    · exact (inv.hashes pair old).mono grows
  · intro pair member last isLast
    rcases reads pair.2 last isLast with ⟨isNew, rfl⟩ | old
    · rcases mem_assign member with newPair | oldPair
      · rw [newPair]
      · rw [← isNew] at fresh
        exact absurd (inv.hashes pair oldPair) fresh
    · rcases mem_assign member with newPair | oldPair
      · rw [newPair] at old
        exact absurd (inv.refs _ last old) fresh
      · exact inv.indexed pair oldPair last old
  · rintro other asked givenAt (old | ⟨rfl, rfl, rfl⟩)
    · exact ⟨(inv.past other asked givenAt old).1.mono grows, (inv.past other asked givenAt old).2⟩
    · exact ⟨allocatedNew, le_refl _⟩
  · intro other asked givenAt given last isLast
    rcases given with oldTold | ⟨isRef, rfl, -⟩
    · rcases reads other last isLast with ⟨isNew, -⟩ | old
      · rw [← isNew] at fresh
        exact absurd (inv.past other asked givenAt oldTold).1 fresh
      · exact inv.same other asked givenAt oldTold last old
    · rcases reads other last isLast with ⟨-, rfl⟩ | old
      · exact Item.Same.refl _
      · rw [isRef] at old
        exact absurd (inv.refs _ last old) fresh
  · intro other asked givenAt given before
    simp only [Refs.mintNew, lookup_assign]
    rcases given with oldTold | ⟨isRef, -, rfl⟩
    · have apart : other ≠ refId lead ((store.nextId.lookup lead).getD 1) := by
        intro isNew
        rw [← isNew] at fresh
        exact fresh (inv.past other asked givenAt oldTold).1
      rw [if_neg apart]
      exact inv.alive other asked givenAt oldTold before
    · have isNew : other = refId lead ((store.nextId.lookup lead).getD 1) := isRef
      rw [if_pos isNew]
      exact ⟨_, rfl, le_refl _⟩
  · intro other last isLast
    rcases reads other last isLast with ⟨-, rfl⟩ | old
    · exact isBrought
    · exact inv.own other last old

theorem StoreInv.mintOne (inv : StoreInv env now store told brought) (kind : String)
    {item : Item Value} (isBrought : brought item)
    (clear : ∀ other, brought other → canonicalHash env item = canonicalHash env other →
      other.Same item) :
    (∃ message, mintOne env now kind store item = (store, .error message) ∧
      (leadOf env kind item).toBool = false) ∨
    ∃ next ref, mintOne env now kind store item = (next, .ok ref) ∧
      StoreInv env now next (withAnswer told ref item now) brought := by
  unfold Refs.mintOne
  cases lead : leadOf env kind item with
  | error message => exact Or.inl ⟨message, rfl, rfl⟩
  | ok letter =>
      refine Or.inr ?_
      have isLead := leadOf_mem lead
      simp only
      cases found : known env store item with
      | none => exact ⟨_, _, rfl, inv.mintNew isLead isBrought⟩
      | some pair =>
          obtain ⟨ref, entry⟩ := pair
          by_cases live : now < entry.expiresAt
          · simp only [live, if_true]
            obtain ⟨indexed, isIndexed, atRef⟩ := Option.bind_eq_some_iff.mp found
            obtain ⟨last, isLast, same⟩ := Option.map_eq_some_iff.mp atRef
            cases same
            have hashed := inv.indexed _ (lookup_mem isIndexed) entry isLast
            exact ⟨_, _, rfl, inv.refresh isLast
              (clear entry.canonical (inv.own ref entry isLast) hashed.symm)⟩
          · simp only [live, if_false]
            exact ⟨_, _, rfl, (inv.unindex _).mintNew isLead isBrought⟩

def loopAnswers (idx : Nat) (items : List (Item Value)) (now : ℚ)
    (result : Except String (List String)) : String → Item Value → ℚ → Prop :=
  fun ref item givenAt => givenAt = now ∧ ∃ refs, result = .ok refs ∧
    (item, ref) ∈ (items.take (maxItemsPerCall - idx)).zip refs

theorem StoreInv.mintFrom (kind : String) (items : List (Item Value)) (idx : Nat)
    (inv : StoreInv env now store told brought)
    (clear : ∀ item ∈ (items.take (maxItemsPerCall - idx)).takeWhile fun item =>
        (leadOf env kind item).toBool,
      brought item ∧ ∀ other, brought other → canonicalHash env item = canonicalHash env other →
        other.Same item) :
    StoreInv env now (mintFrom env now kind idx items store).1
      (fun ref item givenAt => told ref item givenAt ∨
        loopAnswers idx items now (mintFrom env now kind idx items store).2 ref item givenAt)
      brought := by
  induction items generalizing idx store told with
  | nil =>
      refine inv.weaken ?_ fun _ _ _ kept => kept
      rintro ref item givenAt (old | ⟨-, refs, -, member⟩)
      · exact old
      · rw [List.take_nil, List.zip_nil_left] at member
        cases member
  | cons item rest ih =>
      rw [Refs.mintFrom]
      by_cases beyond : maxItemsPerCall ≤ idx
      · rw [if_pos beyond]
        have none : maxItemsPerCall - idx = 0 := Nat.sub_eq_zero_of_le beyond
        have noneAfter : maxItemsPerCall - (idx + 1) = 0 := by omega
        have others := @ih store told (idx + 1) inv (by
          rw [noneAfter, List.take_zero, List.takeWhile_nil]
          intro other member
          cases member)
        refine others.weaken ?_ fun _ _ _ kept => kept
        rintro ref asked givenAt (old | ⟨-, refs, -, member⟩)
        · exact Or.inl old
        · rw [none, List.take_zero, List.zip_nil_left] at member
          cases member
      · rw [if_neg beyond]
        have more : maxItemsPerCall - idx = (maxItemsPerCall - (idx + 1)) + 1 := by omega
        rw [more, List.take_succ_cons] at clear
        cases isLead : (leadOf env kind item).toBool with
        | false =>
            have failed : ∃ message, Refs.mintOne env now kind store item = (store, .error message) := by
              unfold Refs.mintOne
              cases lead : leadOf env kind item with
              | error message => exact ⟨message, rfl⟩
              | ok letter =>
                  rw [lead] at isLead
                  cases isLead
            obtain ⟨message, same⟩ := failed
            rw [same]
            refine inv.weaken ?_ fun _ _ _ kept => kept
            rintro ref asked givenAt (old | ⟨-, refs, isOk, -⟩)
            · exact old
            · cases isOk
        | true =>
            simp only [List.takeWhile_cons, isLead, if_true] at clear
            obtain ⟨isBrought, apart⟩ := clear item List.mem_cons_self
            rcases inv.mintOne kind isBrought apart with
              ⟨message, -, noLead⟩ | ⟨next, ref, same, answeredInv⟩
            · rw [isLead] at noLead
              cases noLead
            · rw [same]
              have others := @ih next _ (idx + 1) answeredInv fun other member =>
                clear other (List.mem_cons_of_mem _ member)
              refine others.weaken ?_ fun _ _ _ kept => kept
              rintro asked other givenAt (old | ⟨isNow, refs, isOk, member⟩)
              · exact Or.inl (Or.inl old)
              · cases result : (Refs.mintFrom env now kind (idx + 1) rest next).2 with
                | error message =>
                    simp only [result] at isOk
                    cases isOk
                | ok later =>
                    simp only [result] at isOk
                    cases isOk
                    rw [more, List.take_succ_cons, List.zip_cons_cons, List.mem_cons] at member
                    rcases member with isFirst | isLater
                    · cases isFirst
                      exact Or.inl (Or.inr ⟨rfl, rfl, isNow⟩)
                    · exact Or.inr ⟨isNow, later, rfl, isLater⟩

end Store

section Runs
variable {Value : Type} {env : Env Value} {state : State Value}

def State.storeOf (state : State Value) (apiKeyId : String) : TenantStore Value :=
  (state.stores.lookup apiKeyId).getD .empty

def State.told (state : State Value) (apiKeyId : String) : String → Item Value → ℚ → Prop :=
  fun ref item givenAt => ⟨apiKeyId, ref, item, givenAt⟩ ∈ state.returned

def State.holds (state : State Value) (apiKeyId : String) (item : Item Value) : Prop :=
  (apiKeyId, item) ∈ state.brought

def Inv (env : Env Value) (state : State Value) : Prop :=
  ∀ apiKeyId, StoreInv env state.now (state.storeOf apiKeyId) (state.told apiKeyId)
    (state.holds apiKeyId)

theorem inv_start (now : ℚ) : Inv env (start now) := fun _ =>
  (storeInv_empty _).weaken (fun _ _ _ none => by cases none) fun _ _ _ kept => kept

theorem answered_key {apiKeyId : String} {now : ℚ} {items : List (Item Value)}
    {result : Except String (List String)} {given : Returned Value}
    (member : given ∈ answered apiKeyId now items result) :
    given.apiKeyId = apiKeyId ∧ loopAnswers 0 items now result given.ref given.item given.givenAt := by
  cases result with
  | error message => cases member
  | ok refs =>
      obtain ⟨pair, isPair, rfl⟩ := List.mem_map.mp member
      exact ⟨rfl, rfl, refs, rfl, isPair⟩

theorem Inv.mint [DecidableEq Value] (inv : Inv env state) {items : List (Item Value)}
    {apiKeyId kind : String} (clear : unconfused env state (.mint items apiKeyId kind) = true) :
    Inv env (step env state (.mint items apiKeyId kind)) := by
  have clash : ∀ item ∈ reached env kind items, ∀ other, other ∈ reached env kind items ++
      held state apiKeyId → canonicalHash env item = canonicalHash env other → other.Same item := by
    intro item isItem other isOther same
    simp only [unconfused, List.all_eq_true] at clear
    have apart := clear item isItem other isOther
    rw [Bool.or_eq_true, bne_iff_ne, Item.sameAs_iff] at apart
    exact (apart.resolve_left fun differ => differ same).symm
  intro asked
  by_cases isKey : asked = apiKeyId
  · subst isKey
    have evicted : StoreInv env state.now (evictExpired (state.storeOf asked) state.now)
        (state.told asked) fun item => (asked, item) ∈ state.brought ++ items.map (asked, ·) ∧
          item ∈ reached env kind items ++ held state asked := by
      refine (inv asked).evict.weaken (fun _ _ _ kept => kept) fun ref entry found old => ?_
      exact ⟨List.mem_append_left _ old,
        List.mem_append_right _ (List.mem_map.mpr ⟨(ref, entry), lookup_mem found, rfl⟩)⟩
    have minted := evicted.mintFrom kind items 0 (by
      intro item isItem
      have inItems : item ∈ items := List.mem_of_mem_take ((List.takeWhile_sublist _).subset isItem)
      refine ⟨⟨List.mem_append_right _ (List.mem_map_of_mem inItems),
        List.mem_append_left _ isItem⟩, fun other isOther => clash item isItem other isOther.2⟩)
    have stored : (step env state (.mint items asked kind)).storeOf asked =
        (mintFrom env state.now kind 0 items (evictExpired (state.storeOf asked) state.now)).1 := by
      rw [State.storeOf]
      simp only [step, Refs.mint, lookup_assign, if_true, Option.getD_some]
      rfl
    rw [stored]
    refine minted.weaken (fun ref item givenAt given => ?_) fun _ _ _ kept => kept.1
    rcases List.mem_append.mp given with old | isNew
    · exact Or.inl old
    · exact Or.inr (answered_key isNew).2
  · have stored : (step env state (.mint items apiKeyId kind)).storeOf asked =
        state.storeOf asked := by
      rw [State.storeOf]
      simp only [step, Refs.mint, lookup_assign, if_neg isKey]
      rfl
    rw [stored]
    refine (inv asked).weaken (fun ref item givenAt given => ?_) fun _ _ _ kept =>
      List.mem_append_left _ kept
    rcases List.mem_append.mp given with old | isNew
    · exact old
    · exact absurd (answered_key isNew).1 isKey

theorem resolve_store (env : Env Value) (stores : Stores Value) (ref apiKeyId asked : String) (now : ℚ) :
    ((resolve env stores ref apiKeyId now).1.lookup asked).getD .empty =
      (stores.lookup asked).getD .empty ∨
    ((resolve env stores ref apiKeyId now).1.lookup asked).getD .empty =
      evictExpired ((stores.lookup asked).getD .empty) now := by
  unfold resolve
  cases found : stores.lookup apiKeyId with
  | none => exact Or.inl rfl
  | some store =>
      simp only [lookup_assign]
      by_cases isKey : asked = apiKeyId
      · rw [if_pos isKey, isKey, found]
        exact Or.inr rfl
      · rw [if_neg isKey]
        exact Or.inl rfl

theorem Inv.step [DecidableEq Value] (inv : Inv env state) {event : Event Value}
    (clear : unconfused env state event = true) : Inv env (step env state event) := by
  cases event with
  | mint items apiKeyId kind => exact inv.mint clear
  | resolve ref apiKeyId =>
      intro asked
      have told : (Refs.step env state (.resolve ref apiKeyId)).told asked = state.told asked := rfl
      have brought : (Refs.step env state (.resolve ref apiKeyId)).holds asked =
          state.holds asked := rfl
      rw [told, brought, State.storeOf]
      rcases resolve_store env state.stores ref apiKeyId asked state.now with same | evicted
      · simp only [Refs.step, same]
        exact inv asked
      · simp only [Refs.step, evicted]
        exact (inv asked).evict
  | wait elapsed =>
      intro asked
      have after : state.now ≤ state.now + elapsed := by
        have positive : (0 : ℚ) ≤ elapsed := elapsed.2
        linarith
      exact (inv asked).later after

theorem resolves_iff {apiKeyId : String} (distinct : KeysDistinct (state.storeOf apiKeyId).refs)
    {ref : String} {item : Item Value} :
    state.resolves env ref apiKeyId item ↔ ∃ entry,
      (state.storeOf apiKeyId).refs.lookup ref = some entry ∧ state.now < entry.expiresAt ∧
        entry.canonical = item := by
  rw [State.resolves, resolve]
  cases found : state.stores.lookup apiKeyId with
  | none =>
      have empty : state.storeOf apiKeyId = .empty := by
        rw [State.storeOf, found]
        rfl
      rw [empty]
      constructor
      · intro failed
        cases failed
      · rintro ⟨entry, absent, -⟩
        cases absent
  | some store =>
      have stored : state.storeOf apiKeyId = store := by
        rw [State.storeOf, found]
        rfl
      rw [stored] at distinct ⊢
      simp only
      constructor
      · intro answer
        cases kept : (evictExpired store state.now).refs.lookup ref with
        | none =>
            rw [kept] at answer
            cases answer
        | some entry =>
            rw [kept] at answer
            cases answer
            obtain ⟨isEntry, live⟩ := (lookup_evict distinct).mp kept
            exact ⟨entry, isEntry, live, rfl⟩
      · rintro ⟨entry, isEntry, live, rfl⟩
        rw [(lookup_evict distinct).mpr ⟨isEntry, live⟩]

theorem Inv.round (inv : Inv env state) {given : Returned Value}
    (isGiven : given ∈ state.returned) (live : state.live env given.ref given.apiKeyId) :
    ∃ item, state.resolves env given.ref given.apiKeyId item ∧ item.Same given.item := by
  have held := inv given.apiKeyId
  obtain ⟨⟨_, _, lastItem, lastAt⟩, isLast, rfl, rfl, before⟩ := live
  obtain ⟨entry, found, expires⟩ := held.alive _ lastItem lastAt isLast before
  exact ⟨entry.canonical, (resolves_iff held.distinct).mpr
    ⟨entry, found, lt_of_lt_of_le before expires, rfl⟩,
    held.same _ given.item given.givenAt isGiven entry found⟩

theorem Inv.promises (inv : Inv env state) : Promises env state where
  round given isGiven live := inv.round isGiven live
  distinct := by
    intro given isGiven other isOther live otherLive sameKey sameRef
    obtain ⟨item, resolved, same⟩ := inv.round isGiven live
    obtain ⟨otherItem, otherResolved, otherSame⟩ := inv.round isOther otherLive
    rw [sameKey, sameRef] at resolved
    have equal : item = otherItem := Except.ok.inj (resolved.symm.trans otherResolved)
    rw [← equal] at otherSame
    exact same.symm.trans otherSame
  own ref apiKeyId item resolved := by
    obtain ⟨entry, found, -, rfl⟩ := (resolves_iff (inv apiKeyId).distinct).mp resolved
    exact (inv apiKeyId).own ref entry found

/-- In every run in which no call brings an item that has the hash of another one, the
references keep their promises. -/
theorem run_promises [DecidableEq Value] (env : Env Value) (now : ℚ) (events : List (Event Value))
    (clear : AllSteps (step env) (fun state event => unconfused env state event = true)
      (start now) events) :
    Promises env (run (step env) (start now) events) :=
  (run_preserves_guarded (step env) (fun state event => unconfused env state event = true)
    (Inv env) (fun _ _ isClear inv => inv.step isClear) events _ clear (inv_start now)).promises

end Runs

inductive Plain where
  | int (number : Nat)
  | text (chars : String)
  deriving DecidableEq

def Plain.str : Plain → String
  | .int number => String.ofList (Nat.toDigits 10 number)
  | .text chars => chars

/-- The hash is a sum over the characters. -/
def plainEnv : Env Plain :=
  { str := fun value => some value.str
    hash := fun texts => texts.foldl (fun sum text =>
      (text.1 ++ "=" ++ text.2).toList.foldl (fun sum char => 31 * sum + char.toNat) sum) 7
    repr := fun text => "'" ++ text ++ "'", reprSet := fun _ => "set()", ttl := 300 }

def fieldItem (size : Plain) : Item Plain :=
  ⟨0, [("field_name", .text "amount"), ("size", size)]⟩

def relisted : List (Event Plain) :=
  [.mint [fieldItem (.int 1), fieldItem (.int 2)] "key-a" "auto", .wait 200,
    .mint [fieldItem (.int 2)] "key-a" "auto", .mint [fieldItem (.int 3)] "key-b" "auto", .wait 200,
    .resolve "f2" "key-a"]

theorem relisted_promises :
    Promises plainEnv (run (step plainEnv) (start 0) relisted) :=
  run_promises plainEnv 0 relisted (by decide +kernel)

/-- The number 1 and the text `1` are one item to the minter. -/
theorem number_and_text_confused :
    ¬ Promises plainEnv (run (step plainEnv) (start 0)
      [.mint [fieldItem (.int 1), fieldItem (.text "1")] "key-a" "auto"]) := by
  intro promises
  have same := promises.distinct ⟨"key-a", "f1", fieldItem (.int 1), 0⟩ (by decide +kernel)
    ⟨"key-a", "f1", fieldItem (.text "1"), 0⟩ (by decide +kernel)
    ⟨⟨"key-a", "f1", fieldItem (.int 1), 0⟩, by decide +kernel, rfl, rfl, by decide +kernel⟩
    ⟨⟨"key-a", "f1", fieldItem (.text "1"), 0⟩, by decide +kernel, rfl, rfl, by decide +kernel⟩
    rfl rfl "size"
  exact absurd same (by decide)

end OdooSemantic.Mcp.Refs
