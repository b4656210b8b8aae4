import OdooSemantic.Lib.Table
import OdooSemantic.WebUi.Totp

/-!
# One-time codes under concurrent requests

A login or a step-up reads the user's row, verifies a code and, for a backup code, writes the
whole array back.  No lock is held in between, and a TOTP code leaves no mark at all.
-/

set_option autoImplicit false

namespace OdooSemantic.WebUi.OneTimeCodes

open Lib.Run WebUi.Totp

structure Env where
  decryptSecret : String → String
  matchesStep : String → Nat → String → Bool
  hmacBackupCode : String → String

/-- `totp_login` and `totp_step_up` verify alike. -/
inductive Endpoint where
  | totpLogin
  | totpStepUp
  deriving DecidableEq

structure Request where
  endpoint : Endpoint
  code : Option String
  backupCode : Option String
  deriving DecidableEq

/-- Where a request stands between two statements. -/
inductive Phase where
  | idle
  | begun (request : Request)
  | loaded (request : Request) (row : TotpRow)
  | writing (row : TotpRow) (codeHash : String) (now : Nat)
  | ended
  deriving DecidableEq

inductive Accepted where
  | backupCode (place : Nat)
  | totpCode (secret code : String) (now : Nat)
  deriving DecidableEq

structure State where
  row : Option TotpRow
  phase : Nat → Phase
  accepted : List Accepted

inductive Event where
  | begin (thread : Nat) (request : Request)
  | act (thread now : Nat)
  | fail (thread : Nat)

/-- The time steps `verify(…, valid_window=1)` tries. -/
def window (now : Nat) : List Nat := [now / 30 - 1, now / 30, now / 30 + 1]

def verifyCode (env : Env) (secret code : String) (now : Nat) : Bool :=
  (window now).any fun timeStep => env.matchesStep secret timeStep code

def codePlace (codeHash : String) (codes : List BackupCode) : Option Nat :=
  codes.findIdx? fun entry => entry.usedAt.isNone && entry.hash == codeHash

def State.setPhase (state : State) (thread : Nat) (phase : Phase) : State :=
  { state with phase := Function.update state.phase thread phase }

def updateBackupCodes (row : Option TotpRow) (codes : List BackupCode) : Option TotpRow :=
  row.map fun known => { known with backupCodesHash := codes }

def act (env : Env) (state : State) (thread now : Nat) : State :=
  match state.phase thread with
  | .begun request =>
      match state.row.filter (·.enabled) with
      | none => state.setPhase thread .ended
      | some row => state.setPhase thread (.loaded request row)
  | .loaded request row =>
      match request.code, request.backupCode with
      | some code, _ =>
          let secret := env.decryptSecret row.secretEncrypted
          if verifyCode env secret code now then
            { state.setPhase thread .ended with
              accepted := state.accepted ++ [.totpCode secret code now] }
          else state.setPhase thread .ended
      | none, some backupCode =>
          let codeHash := env.hmacBackupCode backupCode
          if (checkBackupCode codeHash now row.backupCodesHash).1 then
            state.setPhase thread (.writing row codeHash now)
          else state.setPhase thread .ended
      | none, none => state.setPhase thread .ended
  | .writing row codeHash stamp =>
      { state.setPhase thread .ended with
        row := updateBackupCodes state.row
          (checkBackupCode codeHash stamp row.backupCodesHash).2
        accepted := state.accepted ++
          ((codePlace codeHash row.backupCodesHash).map .backupCode).toList }
  | _ => state

def step (env : Env) (state : State) : Event → State
  | .begin thread request =>
      if state.phase thread = .idle then state.setPhase thread (.begun request) else state
  | .act thread now => act env state thread now
  | .fail thread =>
      if state.phase thread = .idle then state else state.setPhase thread .ended

/-- No request has begun. -/
def resting (row : Option TotpRow) : State := ⟨row, fun _ => .idle, []⟩

def State.codes (state : State) : List BackupCode :=
  (state.row.map (·.backupCodesHash)).getD []

def used (codes : List BackupCode) (place : Nat) : Bool :=
  codes[place]?.any (·.usedAt.isSome)

def sameCode (env : Env) : Accepted → Accepted → Bool
  | .backupCode first, .backupCode second => first == second
  | .totpCode secret code now, .totpCode secret' code' now' =>
      secret == secret' && (window now).any fun timeStep =>
        (window now').contains timeStep && env.matchesStep secret timeStep code &&
          env.matchesStep secret timeStep code'
  | _, _ => false

structure OneTime (env : Env) (start : State) (events : List Event) : Prop where
  once : ∀ earlier later, events = earlier ++ later →
    (run (step env) start earlier).accepted.Pairwise fun first second =>
      sameCode env first second = false
  stays : ∀ earlier middle later, events = earlier ++ (middle ++ later) → ∀ place,
    used (run (step env) start earlier).codes place = true →
      used (run (step env) start (earlier ++ middle)).codes place = true

/-- A backup code is written into the array that was read, and a TOTP code is not one that was
accepted within the window of its time step. -/
def clean (env : Env) (state : State) : Event → Bool
  | .act thread now =>
      match state.phase thread with
      | .loaded request row =>
          request.code.all fun code =>
            let secret := env.decryptSecret row.secretEncrypted
            !verifyCode env secret code now ||
              state.accepted.all fun old => !sameCode env old (.totpCode secret code now)
      | .writing row _ _ => state.codes == row.backupCodesHash
      | _ => true
  | _ => true

def Marked (before after : BackupCode) : Prop :=
  after.hash = before.hash ∧ (before.usedAt.isSome = true → after = before)

def Extends (before after : List BackupCode) : Prop := List.Forall₂ Marked before after

section Arrays
variable {before middle after codes : List BackupCode} {place : Nat}

theorem Extends.refl (codes : List BackupCode) : Extends codes codes := by
  induction codes with
  | nil => exact .nil
  | cons entry rest ih => exact .cons ⟨rfl, fun _ => rfl⟩ ih

theorem Extends.trans (first : Extends before middle) (second : Extends middle after) :
    Extends before after := by
  refine Lib.Table.forall₂_trans ?_ first second
  intro one two three onTwo onThree
  refine ⟨onThree.1.trans onTwo.1, fun marked => ?_⟩
  have same := onTwo.2 marked
  have still : two.usedAt.isSome = true := by rw [same]; exact marked
  exact (onThree.2 still).trans same

theorem Extends.used (grown : Extends before after) :
    ∀ place, used before place = true → used after place = true := by
  induction grown with
  | nil => intro place marked; exact marked
  | cons head rest ih =>
      intro place marked
      cases place with
      | zero =>
          simp only [OneTimeCodes.used, List.getElem?_cons_zero, Option.any_some] at marked ⊢
          rw [head.2 marked]
          exact marked
      | succ place =>
          simp only [OneTimeCodes.used, List.getElem?_cons_succ] at marked ⊢
          exact ih place marked

theorem Extends.new_mark (grown : Extends before after) (differ : after ≠ before) :
    ∃ place, OneTimeCodes.used before place = false ∧ OneTimeCodes.used after place = true := by
  induction grown with
  | nil => exact absurd rfl differ
  | @cons old new olds news head rest ih =>
      by_cases same : new = old
      · subst same
        obtain ⟨place, unused, marked⟩ := ih fun rests => differ (by rw [rests])
        exact ⟨place + 1, by simpa [OneTimeCodes.used] using unused,
          by simpa [OneTimeCodes.used] using marked⟩
      · have unused : old.usedAt.isSome = false :=
          Bool.eq_false_iff.mpr fun marked => same (head.2 marked)
        have marked : new.usedAt.isSome = true := by
          by_contra unmarked
          refine same ?_
          obtain ⟨sameHash, -⟩ := head
          cases old
          cases new
          simp_all
        exact ⟨0, by simpa [OneTimeCodes.used] using unused,
          by simpa [OneTimeCodes.used] using marked⟩

theorem checkBackupCode_eq (codeHash : String) (now : Nat) (codes : List BackupCode) :
    checkBackupCode codeHash now codes = match codePlace codeHash codes with
      | none => (false, codes)
      | some place => (true, codes.modify place fun entry => { entry with usedAt := some now }) := by
  induction codes with
  | nil => rfl
  | cons entry rest ih =>
      simp only [checkBackupCode, codePlace, List.findIdx?_cons] at ih ⊢
      by_cases matched : (entry.usedAt.isNone && entry.hash == codeHash) = true
      · simp [matched]
      · simp only [matched, Bool.false_eq_true, if_false, ih]
        cases rest.findIdx? fun entry => entry.usedAt.isNone && entry.hash == codeHash with
        | none | some place => rfl

theorem codePlace_unused {codeHash : String} (found : codePlace codeHash codes = some place) :
    place < codes.length ∧ used codes place = false := by
  obtain ⟨inRange, matched, -⟩ := List.findIdx?_eq_some_iff_getElem.mp found
  simp only [Bool.and_eq_true] at matched
  refine ⟨inRange, ?_⟩
  simp only [used, List.getElem?_eq_getElem inRange, Option.any_some]
  simpa using matched.1

theorem used_modify (codes : List BackupCode) (place other now : Nat) :
    used (codes.modify place fun entry => { entry with usedAt := some now }) other =
      (used codes other || (decide (other = place) && decide (place < codes.length))) := by
  unfold used
  rw [List.getElem?_modify]
  by_cases same : place = other
  · subst same
    by_cases inRange : place < codes.length
    · simp [inRange]
    · simp [inRange]
  · simp [same, Ne.symm same]

theorem extends_modify {now : Nat} (unused : used codes place = false) :
    Extends codes (codes.modify place fun entry => { entry with usedAt := some now }) := by
  induction codes generalizing place with
  | nil =>
      rw [List.modify_nil]
      exact .nil
  | cons entry rest ih =>
      cases place with
      | zero =>
          refine .cons ⟨rfl, fun marked => ?_⟩ (Extends.refl rest)
          simp [used, marked] at unused
      | succ place =>
          exact .cons ⟨rfl, fun _ => rfl⟩ (ih (by simpa [used] using unused))

end Arrays

def Phase.read : Phase → Option (List BackupCode)
  | .loaded _ row => some row.backupCodesHash
  | .writing row _ _ => some row.backupCodesHash
  | _ => none

structure Inv (env : Env) (initial : List BackupCode) (state : State) : Prop where
  reads : ∀ thread codes, (state.phase thread).read = some codes →
    state.row.isSome = true ∧ Extends initial codes ∧ Extends codes state.codes
  found : ∀ thread row codeHash now, state.phase thread = .writing row codeHash now →
    (codePlace codeHash row.backupCodesHash).isSome = true
  grown : Extends initial state.codes
  marked : ∀ place, used state.codes place = true →
    used initial place = true ∨ .backupCode place ∈ state.accepted
  holds : ∀ place, .backupCode place ∈ state.accepted → used state.codes place = true
  once : state.accepted.Pairwise fun first second => sameCode env first second = false

section Steps
variable {env : Env} {initial : List BackupCode} {state : State}

theorem Inv.setPhase (inv : Inv env initial state) {thread : Nat} {phase : Phase}
    (reads : ∀ codes, phase.read = some codes →
      (state.phase thread).read = some codes ∨
        ∃ row, state.row = some row ∧ codes = row.backupCodesHash)
    (found : ∀ row codeHash now, phase = .writing row codeHash now →
      (codePlace codeHash row.backupCodesHash).isSome = true) :
    Inv env initial (state.setPhase thread phase) := by
  refine ⟨?_, ?_, inv.grown, inv.marked, inv.holds, inv.once⟩
  · intro other codes
    by_cases acting : other = thread
    · subst acting
      simp only [State.setPhase, Function.update_self]
      intro read
      rcases reads codes read with old | ⟨row, stored, rfl⟩
      · exact inv.reads other codes old
      · have same : state.codes = row.backupCodesHash := by simp [State.codes, stored]
        refine ⟨by simp [stored], same ▸ inv.grown, ?_⟩
        rw [← same]
        exact Extends.refl _
    · simp only [State.setPhase, Function.update_of_ne acting]
      exact inv.reads other codes
  · intro other row codeHash now
    by_cases acting : other = thread
    · subst acting
      simp only [State.setPhase, Function.update_self]
      exact found row codeHash now
    · simp only [State.setPhase, Function.update_of_ne acting]
      exact inv.found other row codeHash now

theorem Inv.ended (inv : Inv env initial state) (thread : Nat) :
    Inv env initial (state.setPhase thread .ended) := by
  refine inv.setPhase (fun codes read => ?_) (fun row codeHash now same => ?_)
  · cases read
  · cases same

theorem Inv.acceptTotp (inv : Inv env initial state) {secret code : String} {now : Nat}
    (fresh : ∀ old ∈ state.accepted, sameCode env old (.totpCode secret code now) = false) :
    Inv env initial { state with accepted := state.accepted ++ [.totpCode secret code now] } := by
  refine ⟨inv.reads, inv.found, inv.grown, ?_, ?_, ?_⟩
  · exact fun place isUsed => (inv.marked place isUsed).imp_right (List.mem_append_left _)
  · intro place member
    rcases List.mem_append.mp member with old | new
    · exact inv.holds place old
    · cases List.mem_singleton.mp new
  · rw [List.pairwise_append]
    refine ⟨inv.once, List.pairwise_singleton _ _, fun old oldIn new newIn => ?_⟩
    rw [List.mem_singleton.mp newIn]
    exact fresh old oldIn

theorem act_writing (inv : Inv env initial state) {thread now stamp : Nat} {row : TotpRow}
    {codeHash : String} (phase : state.phase thread = .writing row codeHash stamp) :
    ∃ place, codePlace codeHash row.backupCodesHash = some place ∧
      (act env state thread now).codes =
        row.backupCodesHash.modify place (fun entry => { entry with usedAt := some stamp }) ∧
      (act env state thread now).accepted = state.accepted ++ [.backupCode place] ∧
      (act env state thread now).row.isSome = true ∧
      (act env state thread now).phase = Function.update state.phase thread .ended := by
  obtain ⟨place, placed⟩ := Option.isSome_iff_exists.mp (inv.found thread row codeHash stamp phase)
  have present := (inv.reads thread row.backupCodesHash (by rw [phase]; rfl)).1
  obtain ⟨known, stored⟩ := Option.isSome_iff_exists.mp present
  refine ⟨place, placed, ?_, ?_, ?_, ?_⟩
  · simp [act, phase, State.codes, updateBackupCodes, stored, checkBackupCode_eq, placed]
  · simp [act, phase, placed]
  · simp [act, phase, updateBackupCodes, stored]
  · simp [act, phase, State.setPhase]

theorem Inv.write (inv : Inv env initial state) {thread now stamp : Nat} {row : TotpRow}
    {codeHash : String} (phase : state.phase thread = .writing row codeHash stamp)
    (current : state.codes = row.backupCodesHash) : Inv env initial (act env state thread now) ∧
      ∀ place, used state.codes place = true → used (act env state thread now).codes place = true := by
  obtain ⟨place, placed, codes, accepted, present, phases⟩ := @act_writing env initial state inv
    thread now stamp row codeHash phase
  obtain ⟨inRange, unused⟩ := codePlace_unused placed
  rw [← current] at codes inRange unused
  have grows : Extends state.codes (act env state thread now).codes := by
    rw [codes]
    exact extends_modify unused
  refine ⟨⟨?_, ?_, inv.grown.trans grows, ?_, ?_, ?_⟩, grows.used⟩
  · intro other read
    rw [phases]
    by_cases acting : other = thread
    · subst acting
      simp only [Function.update_self]
      intro none
      cases none
    · simp only [Function.update_of_ne acting]
      intro isRead
      obtain ⟨-, fromFirst, toStored⟩ := inv.reads other read isRead
      exact ⟨present, fromFirst, toStored.trans grows⟩
  · intro other otherRow otherHash otherNow
    rw [phases]
    by_cases acting : other = thread
    · subst acting
      simp only [Function.update_self]
      intro none
      cases none
    · simp only [Function.update_of_ne acting]
      exact inv.found other otherRow otherHash otherNow
  · intro other isUsed
    rw [codes, used_modify] at isUsed
    rw [accepted]
    rcases Bool.or_eq_true_iff.mp isUsed with old | new
    · exact (inv.marked other old).imp_right (List.mem_append_left _)
    · simp only [Bool.and_eq_true, decide_eq_true_eq] at new
      exact Or.inr (List.mem_append_right _ (by simp [new.1]))
  · intro other member
    rw [accepted] at member
    rcases List.mem_append.mp member with old | new
    · exact grows.used other (inv.holds other old)
    · cases List.mem_singleton.mp new
      rw [codes, used_modify]
      simp [inRange]
  · rw [accepted, List.pairwise_append]
    refine ⟨inv.once, List.pairwise_singleton _ _, fun old oldIn new newIn => ?_⟩
    rw [List.mem_singleton.mp newIn]
    cases old with
    | totpCode secret code now => rfl
    | backupCode other =>
        have notThis : other ≠ place := by
          intro same
          have isUsed := inv.holds other oldIn
          rw [same, unused] at isUsed
          cases isUsed
        simpa [sameCode] using notThis

theorem Inv.step (inv : Inv env initial state) {event : Event}
    (meets : clean env state event = true) :
    Inv env initial (OneTimeCodes.step env state event) ∧
      ∀ place, used state.codes place = true →
        used (OneTimeCodes.step env state event).codes place = true := by
  cases event with
  | begin thread request =>
      simp only [OneTimeCodes.step]
      split
      · refine ⟨inv.setPhase (fun codes read => ?_) (fun row codeHash now same => ?_),
          fun _ marked => marked⟩
        · cases read
        · cases same
      · exact ⟨inv, fun _ marked => marked⟩
  | fail thread =>
      simp only [OneTimeCodes.step]
      split
      · exact ⟨inv, fun _ marked => marked⟩
      · exact ⟨inv.ended thread, fun _ marked => marked⟩
  | act thread now =>
      simp only [OneTimeCodes.step]
      cases phase : state.phase thread with
      | idle | ended =>
          simp only [act, phase]
          exact ⟨inv, fun _ marked => marked⟩
      | writing row codeHash stamp =>
          simp only [clean, phase, beq_iff_eq] at meets
          exact inv.write phase meets
      | begun request =>
          simp only [act, phase]
          split
          · exact ⟨inv.ended thread, fun _ marked => marked⟩
          · rename_i row loaded
            have stored := (Option.filter_eq_some_iff.mp loaded).1
            refine ⟨inv.setPhase (fun codes read => ?_) (fun row codeHash now same => ?_),
              fun _ marked => marked⟩
            · exact Or.inr ⟨row, stored, (Option.some.inj read).symm⟩
            · cases same
      | loaded request row =>
          simp only [act, phase]
          split
          · rename_i code _ isCode
            split
            · rename_i valid
              refine ⟨(inv.acceptTotp ?_).ended thread, fun _ marked => marked⟩
              intro old oldIn
              have fresh := meets
              simp only [clean, phase, isCode, Option.all_some, valid, Bool.not_true,
                Bool.false_or, List.all_eq_true] at fresh
              simpa using fresh old oldIn
            · exact ⟨inv.ended thread, fun _ marked => marked⟩
          · rename_i backupCode _ _
            split
            · rename_i valid
              refine ⟨inv.setPhase (fun codes read => ?_) (fun row' codeHash now' same => ?_),
                fun _ marked => marked⟩
              · left
                rw [phase]
                exact read
              · cases same
                rw [checkBackupCode_eq] at valid
                cases placed : codePlace (env.hmacBackupCode backupCode) row.backupCodesHash with
                | none => simp [placed] at valid
                | some place => rfl
            · exact ⟨inv.ended thread, fun _ marked => marked⟩
          · exact ⟨inv.ended thread, fun _ marked => marked⟩

theorem Inv.dirty (inv : Inv env initial state) {event : Event}
    (misses : clean env state event = false) :
    (¬ (OneTimeCodes.step env state event).accepted.Pairwise
        fun first second => sameCode env first second = false) ∨
      ∃ place, used state.codes place = true ∧
        used (OneTimeCodes.step env state event).codes place = false := by
  cases event with
  | begin thread request | fail thread => cases misses
  | act thread now =>
      simp only [OneTimeCodes.step]
      cases phase : state.phase thread with
      | idle | begun request | ended => simp [clean, phase] at misses
      | loaded request row =>
          left
          cases code : request.code with
          | none => simp [clean, phase, code] at misses
          | some code' =>
              simp only [clean, phase, code, Option.all_some, Bool.or_eq_false_iff,
                Bool.not_eq_false'] at misses
              obtain ⟨valid, again⟩ := misses
              obtain ⟨old, oldIn, same⟩ := List.all_eq_false.mp again
              intro once
              have accepted : (act env state thread now).accepted = state.accepted ++
                  [.totpCode (env.decryptSecret row.secretEncrypted) code' now] := by
                simp [act, phase, code, valid]
              rw [accepted, List.pairwise_append] at once
              have apart := once.2.2 old oldIn _ List.mem_cons_self
              simp [apart] at same
      | writing row codeHash stamp =>
          simp only [clean, phase, beq_eq_false_iff_ne, ne_eq] at misses
          have toStored := (inv.reads thread row.backupCodesHash (by rw [phase]; rfl)).2.2
          have fromFirst := (inv.reads thread row.backupCodesHash (by rw [phase]; rfl)).2.1
          obtain ⟨other, unread, marked⟩ := toStored.new_mark misses
          obtain ⟨place, placed, codes, accepted, -, -⟩ := @act_writing env initial state inv
            thread now stamp row codeHash phase
          by_cases same : other = place
          · -- the same code was accepted by the request that marked it
            subst same
            left
            have firstUnused : used initial other = false := by
              refine Bool.eq_false_iff.mpr fun isUsed => ?_
              rw [fromFirst.used other isUsed] at unread
              cases unread
            have before : .backupCode other ∈ state.accepted := by
              rcases inv.marked other marked with first | ran
              · rw [firstUnused] at first
                cases first
              · exact ran
            intro once
            rw [accepted, List.pairwise_append] at once
            have apart := once.2.2 _ before _ List.mem_cons_self
            simp [sameCode] at apart
          · right
            refine ⟨other, marked, ?_⟩
            rw [codes, used_modify, unread]
            simp [same]

end Steps

section Runs
variable {env : Env} {initial : List BackupCode}

theorem inv_resting (env : Env) (row : Option TotpRow) :
    Inv env (resting row).codes (resting row) := by
  refine ⟨?_, ?_, Extends.refl _, fun place isUsed => Or.inl isUsed, ?_, List.Pairwise.nil⟩
  · intro thread codes read
    cases read
  · intro thread row' codeHash now same
    cases same
  · intro place member
    cases member

theorem OneTime.of_clean (events : List Event) (start : State) (inv : Inv env initial start)
    (steps : AllSteps (step env) (fun state event => clean env state event = true) start events) :
    OneTime env start events := by
  refine ⟨?_, ?_⟩
  · intro earlier later split
    rw [split, allSteps_append] at steps
    exact (run_preserves_guarded (step env) (fun state event => clean env state event = true)
      (Inv env initial) (fun state event meets inv => (inv.step meets).1) earlier start steps.1
      inv).once
  · intro earlier middle later split place isUsed
    rw [split, allSteps_append, allSteps_append] at steps
    have reached := run_preserves_guarded (step env)
      (fun state event => clean env state event = true) (Inv env initial)
      (fun state event meets inv => (inv.step meets).1) earlier start steps.1 inv
    rw [run_append]
    exact (run_preserves_guarded (step env) (fun state event => clean env state event = true)
      (fun state => Inv env initial state ∧ used state.codes place = true)
      (fun state event meets holds =>
        ⟨(holds.1.step meets).1, (holds.1.step meets).2 place holds.2⟩)
      middle _ steps.2.1 ⟨reached, isUsed⟩).2

theorem OneTime.clean (events : List Event) : ∀ start : State, Inv env initial start →
    OneTime env start events →
    AllSteps (step env) (fun state event => clean env state event = true) start events := by
  induction events with
  | nil => intro start _ _; trivial
  | cons event rest ih =>
      intro start inv oneTime
      have meets : OneTimeCodes.clean env start event = true := by
        by_contra misses
        rcases inv.dirty (Bool.eq_false_iff.mpr misses) with twice | ⟨place, marked, dropped⟩
        · exact twice (oneTime.once [event] rest rfl)
        · have stays := oneTime.stays [] [event] rest rfl place marked
          rw [List.nil_append, run_cons, run_nil, dropped] at stays
          cases stays
      refine ⟨meets, ih _ (inv.step meets).1 ⟨?_, ?_⟩⟩
      · intro earlier later split
        exact oneTime.once (event :: earlier) later (by rw [split]; rfl)
      · intro earlier middle later split
        exact oneTime.stays (event :: earlier) middle later (by rw [split]; rfl)

/-- In every interleaving of logins and step-ups every code is accepted at most once and a used
backup code stays used if and only if every backup code is written into the array that was
read and no TOTP code is verified that was accepted within its window before. -/
theorem oneTime_iff_clean (env : Env) (row : Option TotpRow) (events : List Event) :
    OneTime env (resting row) events ↔
      AllSteps (step env) (fun state event => clean env state event = true) (resting row) events :=
  ⟨OneTime.clean events (resting row) (inv_resting env row),
    OneTime.of_clean events (resting row) (inv_resting env row)⟩

end Runs

/-- Codes are their own hashes, and the code of a time step is its number. -/
def plainEnv : Env :=
  { decryptSecret := id, matchesStep := fun _ timeStep code => toString timeStep == code
    hmacBackupCode := id }

def twoCodes : Option TotpRow :=
  some { secretEncrypted := "JBSW", enabled := true
         backupCodesHash := [⟨"a1", none⟩, ⟨"b2", none⟩], lastUsedAt := none }

def withBackup (endpoint : Endpoint) (backupCode : String) : Request :=
  ⟨endpoint, none, some backupCode⟩

/-- One request after the other, each with its own code. -/
def inTurn : List Event :=
  [.begin 0 (withBackup .totpLogin "a1"), .act 0 5, .act 0 6, .act 0 7,
    .begin 1 (withBackup .totpStepUp "b2"), .act 1 8, .act 1 9, .act 1 10,
    .begin 2 ⟨.totpStepUp, some "3", none⟩, .act 2 100, .act 2 101]

/-- Two requests read the array before either writes it. -/
def overlapping (first second : String) : List Event :=
  [.begin 0 (withBackup .totpLogin first), .begin 1 (withBackup .totpStepUp second),
    .act 0 5, .act 1 5, .act 0 6, .act 1 6, .act 0 7, .act 1 7]

/-- One TOTP code in two requests of the same half minute. -/
def replayed : List Event :=
  [.begin 0 ⟨.totpLogin, some "3", none⟩, .act 0 100, .act 0 101,
    .begin 1 ⟨.totpLogin, some "3", none⟩, .act 1 102, .act 1 103]

theorem codes_in_turn :
    OneTime plainEnv (resting twoCodes) inTurn ∧
      (run (step plainEnv) (resting twoCodes) inTurn).accepted.length = 3 :=
  ⟨(oneTime_iff_clean plainEnv twoCodes inTurn).mpr (by decide +kernel), by decide +kernel⟩

/-- Overlapping requests accept one backup code twice or forget one, and a TOTP code is
accepted again. -/
theorem codes_accepted_again :
    (run (step plainEnv) (resting twoCodes) (overlapping "a1" "a1")).accepted =
        [.backupCode 0, .backupCode 0] ∧
      used (run (step plainEnv) (resting twoCodes)
          ((overlapping "a1" "b2").take 7)).codes 0 = true ∧
      used (run (step plainEnv) (resting twoCodes) (overlapping "a1" "b2")).codes 0 = false ∧
      (run (step plainEnv) (resting twoCodes) replayed).accepted =
        [.totpCode "JBSW" "3" 101, .totpCode "JBSW" "3" 103] ∧
      ¬ OneTime plainEnv (resting twoCodes) (overlapping "a1" "a1") := by
  refine ⟨by decide +kernel, by decide +kernel, by decide +kernel, by decide +kernel, ?_⟩
  intro oneTime
  have once := oneTime.once (overlapping "a1" "a1") [] (List.append_nil _).symm
  revert once
  decide +kernel

end OdooSemantic.WebUi.OneTimeCodes
