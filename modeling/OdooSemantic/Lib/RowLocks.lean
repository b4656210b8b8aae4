import Mathlib.Data.List.Basic

/-!
# Row locks

`FOR SHARE` and `FOR UPDATE` locks of transactions, each known by its owner.  A transaction
that asks for a row another one holds in a clashing mode waits; all its locks go when it ends.
-/

set_option autoImplicit false

namespace OdooSemantic.Lib.RowLocks

inductive Mode where
  | share
  | update
  deriving DecidableEq

structure Lock where
  owner : Nat
  row : Nat
  mode : Mode
  deriving DecidableEq

def clash : Mode → Mode → Bool
  | .share, .share => false
  | _, _ => true

def grantable (held : List Lock) (owner row : Nat) (mode : Mode) : Bool :=
  held.all fun other => other.owner == owner || other.row != row || !clash other.mode mode

def acquire (held : List Lock) (owner : Nat) (wanted : List (Nat × Mode)) : List Lock :=
  wanted.map (fun (row, mode) => ⟨owner, row, mode⟩) ++ held

def release (held : List Lock) (owner : Nat) : List Lock :=
  held.filter fun lock => lock.owner != owner

def Compatible (held : List Lock) : Prop :=
  ∀ lock ∈ held, ∀ other ∈ held, lock.owner ≠ other.owner → lock.row = other.row →
    clash lock.mode other.mode = false

def Free (held : List Lock) (owner row : Nat) : Prop :=
  ∀ other ∈ held, other.owner ≠ owner → other.row ≠ row

def Steady (held : List Lock) (owner row : Nat) : Prop :=
  ∀ other ∈ held, other.owner ≠ owner → other.row = row → other.mode = .share

section Locks
variable {held : List Lock} {owner row : Nat} {mode : Mode}

theorem clash_comm (first second : Mode) : clash first second = clash second first := by
  cases first with
  | share | update => cases second with
      | share | update => rfl

theorem grantable_iff : grantable held owner row mode = true ↔
    ∀ other ∈ held, other.owner ≠ owner → other.row = row → clash other.mode mode = false := by
  unfold grantable
  rw [List.all_eq_true]
  refine forall_congr' fun other => imp_congr_right fun _ => ?_
  by_cases own : other.owner = owner
  · simp [own]
  · by_cases same : other.row = row
    · simp [own, same]
    · simp [own, same]

theorem free_of_grantable (granted : grantable held owner row .update = true) :
    Free held owner row := by
  intro other member apart same
  have clear := grantable_iff.mp granted other member apart same
  cases mode' : other.mode with
  | share | update => simp [mode', clash] at clear

theorem Compatible.free (compatible : Compatible held)
    (holds : (⟨owner, row, .update⟩ : Lock) ∈ held) : Free held owner row := by
  intro other member apart same
  have clear := compatible _ holds other member (Ne.symm apart) same.symm
  simp [clash] at clear

theorem Compatible.steady (compatible : Compatible held)
    (holds : (⟨owner, row, mode⟩ : Lock) ∈ held) : Steady held owner row := by
  intro other member apart same
  have clear := compatible _ holds other member (Ne.symm apart) same.symm
  cases mode' : other.mode with
  | share => rfl
  | update => cases mode with
      | share => simp [mode', clash] at clear
      | update => simp [clash] at clear

theorem mem_acquire {wanted : List (Nat × Mode)} {lock : Lock} :
    lock ∈ acquire held owner wanted ↔
      (lock.owner = owner ∧ (lock.row, lock.mode) ∈ wanted) ∨ lock ∈ held := by
  unfold acquire
  rw [List.mem_append, List.mem_map]
  refine or_congr_left ⟨?_, ?_⟩
  · rintro ⟨⟨row, mode⟩, wantedIn, rfl⟩
    exact ⟨rfl, wantedIn⟩
  · rintro ⟨rfl, wantedIn⟩
    exact ⟨(lock.row, lock.mode), wantedIn, rfl⟩

theorem mem_release {lock : Lock} :
    lock ∈ release held owner ↔ lock ∈ held ∧ lock.owner ≠ owner := by
  simp [release]

theorem Compatible.acquire (compatible : Compatible held) {wanted : List (Nat × Mode)}
    (granted : ∀ want ∈ wanted, grantable held owner want.1 want.2 = true) :
    Compatible (acquire held owner wanted) := by
  intro lock lockIn other otherIn apart same
  rcases mem_acquire.mp lockIn with ⟨own, wantedIn⟩ | old
  · rcases mem_acquire.mp otherIn with ⟨own', -⟩ | old'
    · exact absurd (own.trans own'.symm) apart
    · rw [clash_comm]
      exact grantable_iff.mp (granted _ wantedIn) other old' (fun own' => apart (own.trans own'.symm))
        same.symm
  · rcases mem_acquire.mp otherIn with ⟨own', wantedIn⟩ | old'
    · exact grantable_iff.mp (granted _ wantedIn) lock old (fun own => apart (own.trans own'.symm)) same
    · exact compatible lock old other old' apart same

theorem Compatible.release (compatible : Compatible held) (owner : Nat) :
    Compatible (release held owner) :=
  fun lock lockIn other otherIn =>
    compatible lock (mem_release.mp lockIn).1 other (mem_release.mp otherIn).1

end Locks

end OdooSemantic.Lib.RowLocks
