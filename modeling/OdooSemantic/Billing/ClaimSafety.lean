import OdooSemantic.Billing.Claims

/-!
# One claim, one link and one key for a subscription

A worker that provisions has the claim of its user and the lock of the subscription.  Claims
are never undone, so what a worker has read of them stays true; links and keys of a
subscription are written under its lock only, so what the holder has read of them does.
-/

set_option autoImplicit false

namespace OdooSemantic.Billing.Claims

open Billing.Activation
open Lib.Run

def Claimed (store : Store) (subId userId : Nat) : Prop :=
  ∃ sub, store.subs subId = some sub ∧ sub.claimedUserId = some userId

def Linked (store : Store) (subId keyId : Nat) : Prop :=
  ∃ sub, store.subs subId = some sub ∧ sub.apiKeyId = some keyId

def Unlinked (store : Store) (subId : Nat) : Prop :=
  ∃ sub, store.subs subId = some sub ∧ sub.apiKeyId = none

def Minted (store : Store) (subId keyId : Nat) : Prop :=
  ∃ key, store.keys keyId = some key ∧ key.mintedFor = some subId

def Unminted (store : Store) (subId : Nat) : Prop := ∀ keyId, ¬ Minted store subId keyId

/-- Before the lock the claim, under the lock also that nobody else writes. -/
def StageOk (state : State) (worker userId subId : Nat) : Stage → Prop
  | .claiming => True
  | .locking => Claimed state.store subId userId
  | .rereading | .asserting | .unlocking =>
      Claimed state.store subId userId ∧ state.locks subId = some worker
  | .minting _ _ =>
      Claimed state.store subId userId ∧ state.locks subId = some worker ∧
        Unlinked state.store subId ∧ Unminted state.store subId
  | .choosing _ _ | .comparing _ _ _ | .planning _ _ _ | .seating _ _ | .joining _ _
  | .tenantLinking _ _ | .linking _ =>
      Claimed state.store subId userId ∧ state.locks subId = some worker ∧
        Unlinked state.store subId

def TodoOk (state : State) (userId : Nat) (todo : List (Nat × Bool)) : Prop :=
  ∀ subId, (subId, true) ∈ todo → Claimed state.store subId userId

def PhaseOk (state : State) (worker : Nat) : Phase → Prop
  | .sweeping userId todo => TodoOk state userId todo
  | .working userId subId todo stage =>
      TodoOk state userId todo ∧ StageOk state worker userId subId stage
  | .idle | .looking _ _ | .reading _ _ | .scanning _ _ => True

/-- Ids are below their sequences. -/
structure Bounded (store : Store) : Prop where
  keys : ∀ keyId key, store.keys keyId = some key → keyId < store.nextKey
  subs : ∀ subId sub, store.subs subId = some sub → subId < store.nextSub

structure MintedOnce (store : Store) : Prop where
  active : ∀ subId keyId, Minted store subId keyId →
    ∃ key userId, store.keys keyId = some key ∧ key.active = true ∧
      key.userId = some userId ∧ Claimed store subId userId
  once : ∀ subId first second, Minted store subId first → Minted store subId second →
    first = second

structure Inv (state : State) : Prop where
  bounded : Bounded state.store
  minted : MintedOnce state.store
  phases : ∀ worker, PhaseOk state worker (state.phases worker)

/-- Nothing the worker may know is made false. -/
structure Undisturbed (worker : Nat) (before after : State) : Prop where
  claims : ∀ subId userId, Claimed before.store subId userId → Claimed after.store subId userId
  locks : ∀ subId, before.locks subId = some worker → after.locks subId = some worker
  unlinked : ∀ subId, before.locks subId = some worker → Unlinked before.store subId →
    Unlinked after.store subId
  unminted : ∀ subId, before.locks subId = some worker → Unminted before.store subId →
    Unminted after.store subId

variable {store : Store} {before after : Store} {todo : List (Nat × Bool)} {subId : Nat}
variable {phase : Phase} {sub : Subscription}

theorem TodoOk.undisturbed {worker userId : Nat} {before after : State}
    (same : Undisturbed worker before after)
    (ok : TodoOk before userId todo) : TodoOk after userId todo :=
  fun subId listed => same.claims subId userId (ok subId listed)

theorem StageOk.undisturbed {worker userId subId : Nat} {before after : State} (stage : Stage)
    (same : Undisturbed worker before after) (ok : StageOk before worker userId subId stage) :
    StageOk after worker userId subId stage := by
  cases stage with
  | claiming => trivial
  | locking => exact same.claims subId userId ok
  | rereading | asserting | unlocking =>
      obtain ⟨claimed, held⟩ := ok
      exact ⟨same.claims subId userId claimed, same.locks subId held⟩
  | minting =>
      obtain ⟨claimed, held, unlinked, unminted⟩ := ok
      exact ⟨same.claims subId userId claimed, same.locks subId held,
        same.unlinked subId held unlinked, same.unminted subId held unminted⟩
  | choosing | comparing | planning | seating | joining | tenantLinking | linking =>
      obtain ⟨claimed, held, unlinked⟩ := ok
      exact ⟨same.claims subId userId claimed, same.locks subId held,
        same.unlinked subId held unlinked⟩

theorem PhaseOk.undisturbed {worker : Nat} {before after : State}
    (same : Undisturbed worker before after) (ok : PhaseOk before worker phase) :
    PhaseOk after worker phase := by
  cases phase with
  | idle | looking | reading | scanning => trivial
  | sweeping userId todo => exact TodoOk.undisturbed same ok
  | working userId subId todo stage => exact ⟨ok.1.undisturbed same, ok.2.undisturbed stage same⟩

/-- What a worker knows is about the store and the locks. -/
theorem phaseOk_goto {state : State} {worker : Nat}
    (ok : PhaseOk state worker phase) :
    PhaseOk (state.goto worker phase) worker ((state.goto worker phase).phases worker) := by
  have there : (state.goto worker phase).phases worker = phase := Function.update_self ..
  rw [there]
  exact ok

structure Moves (worker : Nat) (before after : State) : Prop where
  bounded : Bounded after.store
  minted : MintedOnce after.store
  links : ∀ subId keyId, Linked before.store subId keyId → Linked after.store subId keyId
  claims : ∀ subId userId, Claimed before.store subId userId → Claimed after.store subId userId
  others : ∀ other, other ≠ worker → Undisturbed other before after
  phases : ∀ other, other ≠ worker → after.phases other = before.phases other
  own : PhaseOk after worker (after.phases worker)

theorem Moves.inv {worker : Nat} {before after : State} (inv : Inv before)
    (moves : Moves worker before after) : Inv after := by
  refine ⟨moves.bounded, moves.minted, fun other => ?_⟩
  by_cases same : other = worker
  · rw [same]
    exact moves.own
  · rw [moves.phases other same]
    exact (inv.phases other).undisturbed (moves.others other same)

/-- Rows keep their claim and their link, and keys their owner, their state and their label. -/
structure Quiet (before after : Store) : Prop where
  rows : ∀ subId sub, before.subs subId = some sub → ∃ now, after.subs subId = some now ∧
    now.claimedUserId = sub.claimedUserId ∧ now.apiKeyId = sub.apiKeyId
  keys : ∀ keyId key, after.keys keyId = some key → key.mintedFor = none ∨
    ∃ old, before.keys keyId = some old ∧ old.userId = key.userId ∧
      old.active = key.active ∧ old.mintedFor = key.mintedFor

theorem Quiet.claimed (quiet : Quiet before after) {subId userId : Nat}
    (claimed : Claimed before subId userId) : Claimed after subId userId := by
  obtain ⟨sub, row, claim⟩ := claimed
  obtain ⟨now, nowRow, same, _⟩ := quiet.rows subId sub row
  exact ⟨now, nowRow, same.trans claim⟩

theorem Quiet.linked (quiet : Quiet before after) {subId keyId : Nat}
    (linked : Linked before subId keyId) : Linked after subId keyId := by
  obtain ⟨sub, row, link⟩ := linked
  obtain ⟨now, nowRow, _, same⟩ := quiet.rows subId sub row
  exact ⟨now, nowRow, same.trans link⟩

theorem Quiet.unlinked (quiet : Quiet before after)
    (unlinked : Unlinked before subId) : Unlinked after subId := by
  obtain ⟨sub, row, link⟩ := unlinked
  obtain ⟨now, nowRow, _, same⟩ := quiet.rows subId sub row
  exact ⟨now, nowRow, same.trans link⟩

theorem Quiet.minted (quiet : Quiet before after) {subId keyId : Nat}
    (minted : Minted after subId keyId) : Minted before subId keyId := by
  obtain ⟨key, row, label⟩ := minted
  rcases quiet.keys keyId key row with other | ⟨old, oldRow, _, _, same⟩
  · rw [label] at other
    cases other
  · exact ⟨old, oldRow, same.trans label⟩

theorem Quiet.mintedOnce (quiet : Quiet before after)
    (minted : MintedOnce before) : MintedOnce after := by
  refine ⟨fun subId keyId now => ?_, fun subId first second one two =>
    minted.once subId first second (quiet.minted one) (quiet.minted two)⟩
  obtain ⟨old, userId, oldRow, active, owner, claimed⟩ := minted.active subId keyId (quiet.minted now)
  obtain ⟨key, row, label⟩ := now
  rcases quiet.keys keyId key row with other | ⟨kept, keptRow, sameOwner, sameActive, _⟩
  · rw [label] at other
    cases other
  · rw [oldRow] at keptRow
    cases keptRow
    exact ⟨key, userId, row, sameActive ▸ active, sameOwner ▸ owner, quiet.claimed claimed⟩

theorem Quiet.undisturbed {state : State} (quiet : Quiet state.store store)
    (worker : Nat) : Undisturbed worker state (state.commit store) :=
  ⟨fun _ _ claimed => quiet.claimed claimed, fun _ held => held,
    fun _ _ unlinked => quiet.unlinked unlinked,
    fun _ _ unminted keyId minted => unminted keyId (quiet.minted minted)⟩

theorem Quiet.refl (store : Store) : Quiet store store :=
  ⟨fun _ sub row => ⟨sub, row, rfl, rfl⟩, fun _ key row => .inr ⟨key, row, rfl, rfl, rfl⟩⟩

theorem moves_quiet {state : State} (inv : Inv state)
    (quiet : Quiet state.store store) (bounded : Bounded store) (worker : Nat)
    (ok : PhaseOk (state.commit store) worker phase) :
    Moves worker state ((state.commit store).goto worker phase) where
  bounded := bounded
  minted := quiet.mintedOnce inv.minted
  links _ _ linked := quiet.linked linked
  claims _ _ claimed := quiet.claimed claimed
  others other _ :=
    let same := quiet.undisturbed other
    ⟨same.claims, same.locks, same.unlinked, same.unminted⟩
  phases _ different := Function.update_of_ne different ..
  own := phaseOk_goto ok

theorem moves_goto {state : State} (inv : Inv state) (worker : Nat)
    (ok : PhaseOk state worker phase) : Moves worker state (state.goto worker phase) :=
  moves_quiet inv (.refl state.store) inv.bounded worker ok

theorem moves_release {state : State} (inv : Inv state) (worker : Nat)
    (ok : PhaseOk (state.release worker) worker phase) :
    Moves worker state ((state.release worker).goto worker phase) where
  bounded := inv.bounded
  minted := inv.minted
  links _ _ linked := linked
  claims _ _ claimed := claimed
  others other different :=
    { claims := fun _ _ claimed => claimed
      locks := fun subId held => by
        have notOwn : ¬ state.locks subId = some worker := by
          rw [held]
          exact fun same => different (Option.some.inj same)
        show (if state.locks subId = some worker then none else state.locks subId) = some other
        rw [if_neg notOwn, held]
      unlinked := fun _ _ unlinked => unlinked
      unminted := fun _ _ unminted => unminted }
  phases _ different := Function.update_of_ne different ..
  own := phaseOk_goto ok

theorem moves_leave {state : State} (inv : Inv state) (worker : Nat) {userId : Nat}
    (ok : TodoOk state userId todo) :
    Moves worker state (state.leave worker userId todo) :=
  moves_release inv worker ok

theorem moves_lock {state : State} (inv : Inv state) (worker : Nat) {userId subId : Nat}
    (free : state.locks subId = none)
    (ok : TodoOk state userId todo) (claimed : Claimed state.store subId userId) :
    Moves worker state
      ({ state with locks := Function.update state.locks subId (some worker) }.goto worker
        (.working userId subId todo .rereading)) where
  bounded := inv.bounded
  minted := inv.minted
  links _ _ linked := linked
  claims _ _ claimed := claimed
  others other different :=
    { claims := fun _ _ claimed => claimed
      locks := fun otherSub held => by
        have apart : otherSub ≠ subId := by
          intro same
          rw [same, free] at held
          cases held
        show Function.update state.locks subId (some worker) otherSub = some other
        rw [Function.update_of_ne apart, held]
      unlinked := fun _ _ unlinked => unlinked
      unminted := fun _ _ unminted => unminted }
  phases _ different := Function.update_of_ne different ..
  own := phaseOk_goto ⟨ok, claimed, Function.update_self ..⟩

theorem claimed_of_update {written : Subscription}
    (keeps : ∀ sub userId, store.subs subId = some sub → sub.claimedUserId = some userId →
      written.claimedUserId = some userId)
    {otherId userId : Nat} (claimed : Claimed store otherId userId) :
    Claimed (store.setSub subId written) otherId userId := by
  obtain ⟨sub, row, claim⟩ := claimed
  by_cases same : otherId = subId
  · subst same
    exact ⟨written, by simp, keeps sub userId row claim⟩
  · exact ⟨sub, by simp [Function.update_of_ne same, row], claim⟩

theorem linked_of_update {written : Subscription}
    (keeps : ∀ sub keyId, store.subs subId = some sub → sub.apiKeyId = some keyId →
      written.apiKeyId = some keyId)
    {otherId keyId : Nat} (linked : Linked store otherId keyId) :
    Linked (store.setSub subId written) otherId keyId := by
  obtain ⟨sub, row, link⟩ := linked
  by_cases same : otherId = subId
  · subst same
    exact ⟨written, by simp, keeps sub keyId row link⟩
  · exact ⟨sub, by simp [Function.update_of_ne same, row], link⟩

theorem Bounded.setSub (bounded : Bounded store)
    (row : store.subs subId = some sub) (written : Subscription) :
    Bounded (store.setSub subId written) := by
  refine ⟨bounded.keys, fun otherId other found => ?_⟩
  by_cases same : otherId = subId
  · subst same
    exact bounded.subs otherId sub row
  · rw [Store.setSub_subs, Function.update_of_ne same] at found
    exact bounded.subs otherId other found

theorem MintedOnce.of_claims (minted : MintedOnce before)
    (keys : after.keys = before.keys)
    (claims : ∀ subId userId, Claimed before subId userId → Claimed after subId userId) :
    MintedOnce after := by
  have same : ∀ subId keyId, Minted after subId keyId → Minted before subId keyId := by
    intro subId keyId ⟨key, row, label⟩
    exact ⟨key, by rw [← keys]; exact row, label⟩
  refine ⟨fun subId keyId now => ?_, fun subId first second one two =>
    minted.once subId first second (same _ _ one) (same _ _ two)⟩
  obtain ⟨key, userId, row, active, owner, claimed⟩ := minted.active subId keyId (same _ _ now)
  exact ⟨key, userId, by rw [keys]; exact row, active, owner, claims subId userId claimed⟩

theorem moves_claim {state : State} (inv : Inv state) (worker : Nat) {userId subId : Nat}
    (row : state.store.subs subId = some sub)
    (free : sub.claimedUserId = none) (ok : TodoOk state userId todo) :
    Moves worker state
      ((state.commit (state.store.setSub subId { sub with claimedUserId := some userId })).goto
        worker (.working userId subId todo .locking)) := by
  have claims : ∀ otherId other, Claimed state.store otherId other →
      Claimed (state.store.setSub subId { sub with claimedUserId := some userId }) otherId
        other := by
    refine fun otherId other => claimed_of_update fun stored owner storedRow claim => ?_
    rw [row] at storedRow
    cases storedRow
    rw [free] at claim
    cases claim
  have links : ∀ otherId keyId, Linked state.store otherId keyId →
      Linked (state.store.setSub subId { sub with claimedUserId := some userId }) otherId
        keyId := by
    refine fun otherId keyId => linked_of_update fun stored key storedRow link => ?_
    rw [row] at storedRow
    cases storedRow
    exact link
  have unlinks : ∀ otherId, Unlinked state.store otherId →
      Unlinked (state.store.setSub subId { sub with claimedUserId := some userId })
        otherId := by
    intro otherId ⟨stored, storedRow, link⟩
    by_cases same : otherId = subId
    · subst same
      rw [row] at storedRow
      cases storedRow
      exact ⟨_, Function.update_self .., link⟩
    · exact ⟨stored, by simp [Function.update_of_ne same, storedRow], link⟩
  exact
    { bounded := inv.bounded.setSub row _
      minted := inv.minted.of_claims rfl claims
      links := links
      claims := claims
      others := fun _ _ => ⟨claims, fun _ held => held, fun otherId _ => unlinks otherId,
        fun _ _ unminted => unminted⟩
      phases := fun _ different => Function.update_of_ne different ..
      own := phaseOk_goto ⟨fun otherId listed => claims otherId userId (ok otherId listed),
        { sub with claimedUserId := some userId }, Function.update_self .., rfl⟩ }

theorem moves_link {state : State} (inv : Inv state) (worker : Nat) {userId subId : Nat}
    (keyId : Nat)
    (row : state.store.subs subId = some sub) (unlinked : sub.apiKeyId = none)
    (claimed : Claimed state.store subId userId) (held : state.locks subId = some worker)
    (ok : TodoOk state userId todo) :
    Moves worker state
      ((state.commit (state.store.setSub subId { sub with apiKeyId := some keyId })).goto
        worker (.working userId subId todo .asserting)) := by
  have claims : ∀ otherId other, Claimed state.store otherId other →
      Claimed (state.store.setSub subId { sub with apiKeyId := some keyId }) otherId
        other := by
    refine fun otherId other => claimed_of_update fun stored owner storedRow claim => ?_
    rw [row] at storedRow
    cases storedRow
    exact claim
  have links : ∀ otherId other, Linked state.store otherId other →
      Linked (state.store.setSub subId { sub with apiKeyId := some keyId }) otherId
        other := by
    refine fun otherId other => linked_of_update fun stored key storedRow link => ?_
    rw [row] at storedRow
    cases storedRow
    rw [unlinked] at link
    cases link
  have others : ∀ other, other ≠ worker → Undisturbed other state
      (state.commit (state.store.setSub subId { sub with apiKeyId := some keyId })) := by
    intro other different
    refine ⟨claims, fun _ kept => kept, fun otherId otherHeld ⟨stored, storedRow, link⟩ => ?_,
      fun _ _ unminted => unminted⟩
    have apart : otherId ≠ subId := by
      intro same
      rw [same, held] at otherHeld
      exact different (Option.some.inj otherHeld).symm
    exact ⟨stored, by simp [State.commit, Function.update_of_ne apart, storedRow], link⟩
  exact
    { bounded := inv.bounded.setSub row _
      minted := inv.minted.of_claims rfl claims
      links := links
      claims := claims
      others := fun other different =>
        let same := others other different
        ⟨same.claims, same.locks, same.unlinked, same.unminted⟩
      phases := fun _ different => Function.update_of_ne different ..
      own := phaseOk_goto ⟨fun otherId listed => claims otherId userId (ok otherId listed),
        claims subId userId claimed, held⟩ }

theorem Bounded.addKey (bounded : Bounded store) (key : ApiKey) :
    Bounded { store.setKey store.nextKey key with nextKey := store.nextKey + 1 } := by
  refine ⟨fun keyId found row => ?_, bounded.subs⟩
  show keyId < store.nextKey + 1
  by_cases same : keyId = store.nextKey
  · omega
  · simp only [Store.setKey_keys, Function.update_of_ne same] at row
    have below := bounded.keys keyId found row
    omega

theorem moves_mint (settings : Settings) {state : State} (inv : Inv state) (worker : Nat)
    {userId subId : Nat} (planId seats : Nat)
    (ok : TodoOk state userId todo)
    (stage : StageOk state worker userId subId (.minting planId seats)) :
    Moves worker state
      ((state.commit (state.store.createApiKey settings userId subId).1).goto worker
        (.working userId subId todo
          (.planning (state.store.createApiKey settings userId subId).2 planId seats))) := by
  obtain ⟨claimed, held, unlinked, unminted⟩ := stage
  have fresh : ∀ otherId keyId,
      Minted (state.store.createApiKey settings userId subId).1 otherId keyId →
        keyId = state.store.nextKey ∧ otherId = subId ∨
          keyId ≠ state.store.nextKey ∧ Minted state.store otherId keyId := by
    intro otherId keyId ⟨key, row, label⟩
    by_cases same : keyId = state.store.nextKey
    · subst same
      simp only [Store.createApiKey, Store.setKey_keys, Function.update_self] at row
      cases row
      exact .inl ⟨rfl, (Option.some.inj label).symm⟩
    · simp only [Store.createApiKey, Store.setKey_keys, Function.update_of_ne same] at row
      exact .inr ⟨same, key, row, label⟩
  have minted : MintedOnce (state.store.createApiKey settings userId subId).1 := by
    constructor
    · intro otherId keyId now
      rcases fresh otherId keyId now with ⟨rfl, rfl⟩ | ⟨different, before⟩
      · exact ⟨_, userId, Function.update_self .., rfl, rfl, claimed⟩
      · obtain ⟨key, owner, row, active, owned, claim⟩ := inv.minted.active otherId keyId before
        exact ⟨key, owner, (Function.update_of_ne different ..).trans row, active, owned, claim⟩
    · intro otherId first second one two
      rcases fresh otherId first one with ⟨rfl, rfl⟩ | ⟨_, firstBefore⟩
      · rcases fresh otherId second two with ⟨rfl, _⟩ | ⟨_, secondBefore⟩
        · rfl
        · exact absurd secondBefore (unminted second)
      · rcases fresh otherId second two with ⟨_, rfl⟩ | ⟨_, secondBefore⟩
        · exact absurd firstBefore (unminted first)
        · exact inv.minted.once otherId first second firstBefore secondBefore
  exact
    { bounded := inv.bounded.addKey _
      minted := minted
      links := fun _ _ linked => linked
      claims := fun _ _ claim => claim
      others := fun other different =>
        { claims := fun _ _ claim => claim
          locks := fun _ kept => kept
          unlinked := fun _ _ link => link
          unminted := fun otherId otherHeld none keyId now => by
            rcases fresh otherId keyId now with ⟨_, rfl⟩ | ⟨_, before⟩
            · have sameWorker : some worker = some other := held.symm.trans otherHeld
              exact different (Option.some.inj sameWorker).symm
            · exact none keyId before }
      phases := fun _ different => Function.update_of_ne different ..
      own := phaseOk_goto ⟨ok, claimed, held, unlinked⟩ }

theorem quiet_of_same (subs : after.subs = before.subs)
    (keys : after.keys = before.keys) : Quiet before after :=
  ⟨fun _ sub row => ⟨sub, by rw [subs]; exact row, rfl, rfl⟩,
    fun _ key row => .inr ⟨key, by rw [← keys]; exact row, rfl, rfl, rfl⟩⟩

theorem quiet_setSub {sub written : Subscription}
    (row : store.subs subId = some sub) (claim : written.claimedUserId = sub.claimedUserId)
    (link : written.apiKeyId = sub.apiKeyId) : Quiet store (store.setSub subId written) := by
  refine ⟨fun otherId other found => ?_, fun _ key keyRow => .inr ⟨key, keyRow, rfl, rfl, rfl⟩⟩
  by_cases same : otherId = subId
  · subst same
    rw [row] at found
    cases found
    exact ⟨written, by simp, claim, link⟩
  · exact ⟨other, by simp [Function.update_of_ne same, found], rfl, rfl⟩

theorem quiet_upsert {store after : Store} (bounded : Bounded store) {grant : EntitlementGrant}
    {lastEventAt : Option Nat}
    (write : RowWrite store grant lastEventAt after subId) :
    Quiet store after ∧ Bounded after := by
  cases write with
  | refreshed _ sub found row => exact ⟨quiet_setSub row rfl rfl, bounded.setSub row _⟩
  | inserted absent =>
      refine ⟨⟨fun otherId other found => ?_,
        fun _ key keyRow => .inr ⟨key, keyRow, rfl, rfl, rfl⟩⟩, bounded.keys,
        fun otherId other found => ?_⟩
      · have below := bounded.subs otherId other found
        have apart : otherId ≠ store.nextSub := by omega
        exact ⟨other, by simp [Function.update_of_ne apart, found], rfl, rfl⟩
      · show otherId < store.nextSub + 1
        by_cases same : otherId = store.nextSub
        · omega
        · simp only [Store.setSub_subs, Function.update_of_ne same] at found
          have below := bounded.subs otherId other found
          omega

theorem quiet_setApiKeyPlan {store after : Store} (bounded : Bounded store)
    {keyId planId : Nat} {clear : Bool}
    (write : store.setApiKeyPlan keyId planId clear = some after) :
    Quiet store after ∧ Bounded after := by
  obtain ⟨key, row, rfl⟩ := Option.map_eq_some_iff.mp write
  refine ⟨⟨fun _ sub subRow => ⟨sub, subRow, rfl, rfl⟩, fun otherId other found => .inr ?_⟩,
    fun otherId other found => ?_, bounded.subs⟩
  · by_cases same : otherId = keyId
    · subst same
      rw [Store.setKey_keys, Function.update_self] at found
      cases found
      exact ⟨key, row, rfl, rfl, rfl⟩
    · rw [Store.setKey_keys, Function.update_of_ne same] at found
      exact ⟨other, found, rfl, rfl, rfl⟩
  · by_cases same : otherId = keyId
    · subst same
      exact bounded.keys otherId key row
    · rw [Store.setKey_keys, Function.update_of_ne same] at found
      exact bounded.keys otherId other found

theorem quiet_mintDefault (settings : Settings) (store : Store) (userId : Nat) :
    Quiet store (mintDefaultApiKey settings store userId) := by
  refine ⟨fun _ sub row => ⟨sub, row, rfl, rfl⟩, fun keyId key row => ?_⟩
  by_cases same : keyId = store.nextKey
  · subst same
    simp only [mintDefaultApiKey, Store.setKey_keys, Function.update_self] at row
    cases row
    exact .inl rfl
  · simp only [mintDefaultApiKey, Store.setKey_keys, Function.update_of_ne same] at row
    exact .inr ⟨key, row, rfl, rfl, rfl⟩

theorem ensureTenant_same (store : Store) (subId : Nat) :
    (store.ensureTenant subId).1.subs = store.subs ∧
      (store.ensureTenant subId).1.keys = store.keys ∧
      (store.ensureTenant subId).1.nextKey = store.nextKey ∧
      (store.ensureTenant subId).1.nextSub = store.nextSub := by
  simp only [Store.ensureTenant]
  split <;> exact ⟨rfl, rfl, rfl, rfl⟩

theorem claimStage_ok {state : State} {worker userId subId : Nat} {mine : Bool}
    (claimed : mine = true → Claimed state.store subId userId) :
    StageOk state worker userId subId (claimStage mine) := by
  cases mine with
  | true => exact claimed rfl
  | false => trivial

theorem claimed_unique {subId first second : Nat}
    (one : Claimed store subId first) (two : Claimed store subId second) : first = second := by
  obtain ⟨sub, row, claim⟩ := one
  obtain ⟨other, otherRow, otherClaim⟩ := two
  rw [row] at otherRow
  cases otherRow
  rw [claim] at otherClaim
  exact Option.some.inj otherClaim

theorem linked_unique {subId first second : Nat}
    (one : Linked store subId first) (two : Linked store subId second) : first = second := by
  obtain ⟨sub, row, link⟩ := one
  obtain ⟨other, otherRow, otherLink⟩ := two
  rw [row] at otherRow
  cases otherRow
  rw [link] at otherLink
  exact Option.some.inj otherLink

theorem firstActiveKey_ne_none {userId keyId : Nat} {key : ApiKey}
    (row : store.keys keyId = some key) (below : keyId < store.nextKey)
    (active : key.active = true) (owned : key.userId = some userId) :
    store.firstActiveKey userId ≠ none := by
  intro absent
  have none := List.find?_eq_none.mp absent keyId (List.mem_range.mpr below)
  simp [row, active, owned] at none

section Steps
variable (settings : Settings)

theorem work_moves {state : State} (inv : Inv state) {worker userId subId : Nat}
    {todo : List (Nat × Bool)} {stage : Stage}
    (there : state.phases worker = .working userId subId todo stage) :
    Moves worker state (work settings state worker userId subId todo stage) := by
  have ok : PhaseOk state worker (.working userId subId todo stage) := there ▸ inv.phases worker
  obtain ⟨todoOk, stageOk⟩ := ok
  cases stage with
  | claiming =>
      rcases Option.eq_none_or_eq_some (state.store.subs subId) with row | ⟨sub, row⟩
      · have run : work settings state worker userId subId todo .claiming =
            state.goto worker (.sweeping userId todo) := by
          simp [work, Store.claimUnclaimedForUser, row]
        rw [run]
        exact moves_goto inv worker todoOk
      · by_cases free : sub.claimedUserId = none
        · have run : work settings state worker userId subId todo .claiming =
              (state.commit (state.store.setSub subId
                { sub with claimedUserId := some userId })).goto worker
                  (.working userId subId todo .locking) := by
            simp [work, Store.claimUnclaimedForUser, row, free]
          rw [run]
          exact moves_claim inv worker row free todoOk
        · have run : work settings state worker userId subId todo .claiming =
              state.goto worker (.sweeping userId todo) := by
            simp [work, Store.claimUnclaimedForUser, row, free]
          rw [run]
          exact moves_goto inv worker todoOk
  | locking =>
      by_cases free : state.locks subId = none
      · simp only [work, if_pos free]
        exact moves_lock inv worker free todoOk stageOk
      · simp only [work, if_neg free]
        have stays : Moves worker state
            (state.goto worker (.working userId subId todo .locking)) :=
          moves_goto inv worker ⟨todoOk, stageOk⟩
        rwa [State.goto, ← there, Function.update_eq_self] at stays
  | rereading =>
      obtain ⟨claimed, held⟩ := stageOk
      simp only [work]
      cases row : state.store.subs subId with
      | none => exact moves_leave inv worker todoOk
      | some sub =>
          cases link : sub.apiKeyId with
          | some keyId =>
              simp only [link, Option.isSome_some, if_true]
              exact moves_leave inv worker todoOk
          | none =>
              simp only [link, Option.isSome_none, Bool.false_eq_true, if_false]
              exact moves_goto inv worker ⟨todoOk, claimed, held, sub, row, link⟩
  | choosing planId seats =>
      obtain ⟨claimed, held, unlinked⟩ := stageOk
      simp only [work]
      cases found : state.store.firstActiveKey userId with
      | some keyId => exact moves_goto inv worker ⟨todoOk, claimed, held, unlinked⟩
      | none =>
          refine moves_goto inv worker ⟨todoOk, claimed, held, unlinked, fun keyId now => ?_⟩
          obtain ⟨key, owner, row, active, owned, claim⟩ := inv.minted.active subId keyId now
          have same : owner = userId := claimed_unique claim claimed
          have below := inv.bounded.keys keyId key row
          rw [same] at owned
          exact absurd found (firstActiveKey_ne_none row below active owned)
  | comparing keyId planId seats =>
      simp only [work]
      split
      · exact moves_goto inv worker ⟨todoOk, stageOk⟩
      · exact moves_goto inv worker ⟨todoOk, stageOk⟩
  | minting planId seats => exact moves_mint settings inv worker planId seats todoOk stageOk
  | planning keyId planId seats =>
      simp only [work]
      cases write : state.store.setApiKeyPlan keyId planId false with
      | none => exact moves_leave inv worker todoOk
      | some store =>
          obtain ⟨quiet, bounded⟩ := quiet_setApiKeyPlan inv.bounded write
          have same := quiet.undisturbed worker
          exact moves_quiet inv quiet bounded worker
            ⟨todoOk.undisturbed same, StageOk.undisturbed (.seating keyId seats) same stageOk⟩
  | seating keyId seats =>
      simp only [work]
      split
      · obtain ⟨subs, keys, nextKey, nextSub⟩ := ensureTenant_same state.store subId
        have quiet := quiet_of_same subs keys
        have same := quiet.undisturbed worker
        exact moves_quiet inv quiet
          ⟨by rw [keys, nextKey]; exact inv.bounded.keys,
            by rw [subs, nextSub]; exact inv.bounded.subs⟩ worker
          ⟨todoOk.undisturbed same, StageOk.undisturbed
            (.joining keyId (state.store.ensureTenant subId).2) same stageOk⟩
      · exact moves_goto inv worker ⟨todoOk, stageOk⟩
  | joining keyId tenantId =>
      have quiet : Quiet state.store (state.store.addTenantAdmin userId tenantId) :=
        quiet_of_same rfl rfl
      have same := quiet.undisturbed worker
      exact moves_quiet inv quiet ⟨inv.bounded.keys, inv.bounded.subs⟩ worker
        ⟨todoOk.undisturbed same, StageOk.undisturbed
          (.tenantLinking keyId tenantId) same stageOk⟩
  | tenantLinking keyId tenantId =>
      obtain ⟨sub, row, link⟩ := stageOk.2.2
      have quiet : Quiet state.store
          (state.store.setSub subId { sub with tenantId := some tenantId }) :=
        quiet_setSub row rfl rfl
      have same := quiet.undisturbed worker
      simp only [work, Store.updateSub_row _ row]
      exact moves_quiet inv quiet (inv.bounded.setSub row _) worker
        ⟨todoOk.undisturbed same, StageOk.undisturbed (.linking keyId) same stageOk⟩
  | linking keyId =>
      obtain ⟨claimed, held, sub, row, link⟩ := stageOk
      simp only [work, Store.updateSub_row _ row]
      exact moves_link inv worker keyId row link claimed held todoOk
  | asserting =>
      obtain ⟨⟨sub, row, claim⟩, held⟩ := stageOk
      have quiet : Quiet state.store
          (state.store.setSub subId { sub with claimedUserId := some userId }) :=
        quiet_setSub row claim.symm rfl
      have same := quiet.undisturbed worker
      simp only [work, Store.updateSub_row _ row]
      exact moves_quiet inv quiet (inv.bounded.setSub row _) worker
        ⟨todoOk.undisturbed same, StageOk.undisturbed .unlocking same
          ⟨⟨sub, row, claim⟩, held⟩⟩
  | unlocking => exact moves_leave inv worker todoOk

theorem moves_stay {state : State} (inv : Inv state) (worker : Nat) :
    Moves worker state state := by
  have stays := moves_goto inv worker (inv.phases worker)
  rwa [State.goto, Function.update_eq_self] at stays

theorem alreadyMine_claimed {store : Store} {subId userId : Nat}
    (mine : alreadyMine store subId userId = true) : Claimed store subId userId := by
  cases row : store.subs subId with
  | none => simp [alreadyMine, row] at mine
  | some sub =>
      refine ⟨sub, row, ?_⟩
      simpa [alreadyMine, row] using mine

theorem union_claimed {state : State} {userId : Nat} {unclaimed : List Nat} :
    TodoOk state userId
      (union unclaimed (findClaimedUnprovisionedActive state.store userId)) := by
  intro subId listed
  have scanned : subId ∈ findClaimedUnprovisionedActive state.store userId := by
    simp only [union, List.mem_append, List.mem_map, Prod.mk.injEq, Bool.false_eq_true,
      and_false, exists_false, false_or, and_true, exists_eq_right] at listed
    exact (List.mem_filter.mp listed).1
  obtain ⟨sub, row, holds⟩ := Store.mem_subsWhere (List.mem_reverse.mp scanned)
  simp only [Bool.and_eq_true, beq_iff_eq] at holds
  exact ⟨sub, row, holds.1.1⟩

theorem proceed_moves {state : State} (inv : Inv state) (worker : Nat)
    (verifiedUser : Option Nat) :
    Moves worker state (proceed settings state worker verifiedUser) := by
  have ok := inv.phases worker
  cases there : state.phases worker with
  | idle =>
      simp only [proceed, there]
      exact moves_stay inv worker
  | looking subId grant =>
      simp only [proceed, there]
      cases buyer grant verifiedUser with
      | none | some userId => exact moves_goto inv worker trivial
  | reading subId userId =>
      simp only [proceed, there]
      exact moves_goto inv worker ⟨fun _ listed => absurd listed List.not_mem_nil,
        claimStage_ok alreadyMine_claimed⟩
  | scanning userId unclaimed =>
      simp only [proceed, there]
      exact moves_goto inv worker union_claimed
  | sweeping userId todo =>
      rw [there] at ok
      cases todo with
      | nil =>
          simp only [proceed, there]
          exact moves_goto inv worker trivial
      | cons item rest =>
          obtain ⟨subId, mine⟩ := item
          simp only [proceed, there]
          refine moves_goto inv worker ⟨fun otherId listed => ok otherId (.tail _ listed),
            claimStage_ok fun isMine => ok subId ?_⟩
          rw [← isMine]
          exact .head _
  | working userId subId todo stage =>
      simp only [proceed, there]
      exact work_moves settings inv there

theorem raised_moves {state : State} (inv : Inv state) (worker : Nat) :
    Moves worker state (raised state worker) := by
  have ok := inv.phases worker
  cases there : state.phases worker with
  | working userId subId todo stage =>
      rw [there] at ok
      simp only [raised, there]
      exact moves_leave inv worker ok.1
  | idle | looking | reading | scanning | sweeping =>
      simp only [raised, there]
      exact moves_goto inv worker trivial

theorem step_moves {state : State} (inv : Inv state) (event : Event) :
    ∃ worker, Moves worker state (step settings state event) := by
  cases event with
  | signUp userId =>
      have moves := moves_quiet inv (quiet_mintDefault settings state.store userId)
        (inv.bounded.addKey _) 0
        ((inv.phases 0).undisturbed
          ((quiet_mintDefault settings state.store userId).undisturbed 0))
      refine ⟨0, ?_⟩
      have stays : (state.commit (mintDefaultApiKey settings state.store userId)).goto 0
          (state.phases 0) = state.commit (mintDefaultApiKey settings state.store userId) := by
        show { state.commit (mintDefaultApiKey settings state.store userId) with
          phases := Function.update state.phases 0 (state.phases 0) } = _
        rw [Function.update_eq_self]
        rfl
      rwa [stays] at moves
  | grant worker grant lastEventAt =>
      refine ⟨worker, ?_⟩
      simp only [step]
      split
      · obtain ⟨quiet, bounded⟩ := quiet_upsert inv.bounded
          (upsertByExternalRef_write state.store grant lastEventAt)
        exact moves_quiet inv quiet bounded worker trivial
      · exact moves_stay inv worker
  | login worker userId email =>
      refine ⟨worker, ?_⟩
      simp only [step]
      split
      · exact moves_goto inv worker trivial
      · exact moves_stay inv worker
  | proceed worker verifiedUser => exact ⟨worker, proceed_moves settings inv worker verifiedUser⟩
  | raise worker => exact ⟨worker, raised_moves inv worker⟩
  | crash worker => exact ⟨worker, moves_release inv worker trivial⟩

structure Start where
  store : Store
  bounded : Bounded store
  noSubscription : ∀ subId, store.subs subId = none
  ownKeys : ∀ keyId key, store.keys keyId = some key → key.mintedFor = none

def Start.state (start : Start) : State :=
  { store := start.store, locks := fun _ => none, phases := fun _ => .idle }

theorem Start.inv (start : Start) : Inv start.state := by
  have none : ∀ subId keyId, ¬ Minted start.store subId keyId := by
    intro subId keyId ⟨key, row, label⟩
    rw [start.ownKeys keyId key row] at label
    cases label
  exact ⟨start.bounded, ⟨fun subId keyId minted => absurd minted (none subId keyId),
    fun subId first _ minted => absurd minted (none subId first)⟩, fun _ => trivial⟩

theorem step_inv (state : State) (event : Event) (inv : Inv state) :
    Inv (step settings state event) := by
  obtain ⟨worker, moves⟩ := step_moves settings inv event
  exact moves.inv inv

theorem run_inv (start : Start) (events : List Event) :
    Inv (run (step settings) start.state events) :=
  run_preserves (step settings) Inv (step_inv settings) start.state start.inv events

theorem run_keeps (holds : Store → Prop)
    (keeps : ∀ worker state after, Moves worker state after → holds state.store →
      holds after.store)
    {state : State} (inv : Inv state) (initial : holds state.store) (events : List Event) :
    holds (run (step settings) state events).store := by
  have both := run_preserves (step settings) (fun state => Inv state ∧ holds state.store)
    (fun state event reached => by
      obtain ⟨worker, moves⟩ := step_moves settings reached.1 event
      exact ⟨moves.inv reached.1, keeps worker _ _ moves reached.2⟩)
    state ⟨inv, initial⟩ events
  exact both.2

/-- Whoever claims a subscription keeps it, the key it is linked to stays and it gets one key
minted at most, whatever workers do and wherever they die. -/
theorem claims_links_and_mints_once (start : Start) (earlier later : List Event) :
    (∀ subId userId, Claimed (run (step settings) start.state earlier).store subId userId →
      ∀ other, Claimed (run (step settings) start.state (earlier ++ later)).store subId other ↔
        other = userId) ∧
    (∀ subId keyId, Linked (run (step settings) start.state earlier).store subId keyId →
      ∀ other, Linked (run (step settings) start.state (earlier ++ later)).store subId other ↔
        other = keyId) ∧
    ∀ subId first second,
      Minted (run (step settings) start.state earlier).store subId first →
      Minted (run (step settings) start.state earlier).store subId second → first = second := by
  have inv := run_inv settings start earlier
  refine ⟨fun subId userId claimed other => ?_, fun subId keyId linked other => ?_,
    fun subId first second one two => inv.minted.once subId first second one two⟩
  · have kept := run_keeps settings (Claimed · subId userId)
      (fun _ _ _ moves => moves.claims subId userId) inv claimed later
    rw [run_append]
    exact ⟨fun claim => claimed_unique claim kept, fun same => same ▸ kept⟩
  · have kept := run_keeps settings (Linked · subId keyId)
      (fun _ _ _ moves => moves.links subId keyId) inv linked later
    rw [run_append]
    exact ⟨fun link => linked_unique link kept, fun same => same ▸ kept⟩

end Steps

end OdooSemantic.Billing.Claims
