import Mathlib.Data.List.Basic
import Mathlib.Order.Lattice

/-!
# Stamps in a sliding window

A bucket keeps the stamps of the accepted requests, oldest first, and drops the stamps at its
front that are out of a window.  The log keeps all stamps.  From the last drop on the bucket
shows the same stamps of the window as the log, as long as no drop used a shorter window.
-/

set_option autoImplicit false

namespace OdooSemantic.Lib.SlidingWindow

structure Window (Time : Type) [LinearOrder Time] where
  out : Time → Time → Bool
  /-- It stays out. -/
  stays : ∀ {now later stamp}, now ≤ later → out now stamp = true → out later stamp = true
  /-- Older stamps are out before it. -/
  older : ∀ {now stamp other}, other ≤ stamp → out now stamp = true → out now other = true

section Buckets
variable {Time : Type} [LinearOrder Time] {window : Window Time}
  {log bucket : List Time} {since now : Time}

def Window.inside (window : Window Time) (now : Time) (stamps : List Time) : List Time :=
  stamps.filter fun stamp => !window.out now stamp

/-- `while bucket and out(bucket[0]): bucket.popleft()`. -/
def Window.evict (window : Window Time) (now : Time) (bucket : List Time) : List Time :=
  bucket.dropWhile (window.out now)

/-- Oldest first. -/
def Chronological (stamps : List Time) : Prop := stamps.Pairwise (· ≤ ·)

theorem evict_suffix (window : Window Time) (now : Time) (bucket : List Time) :
    window.evict now bucket <:+ bucket :=
  List.dropWhile_suffix _

theorem Chronological.evict (ordered : Chronological bucket) (window : Window Time) (now : Time) :
    Chronological (window.evict now bucket) :=
  ordered.sublist (evict_suffix window now bucket).sublist

theorem evict_eq_inside (ordered : Chronological bucket) (window : Window Time) (now : Time) :
    window.evict now bucket = window.inside now bucket := by
  induction bucket with
  | nil => rfl
  | cons stamp rest ih =>
      obtain ⟨first, ordered⟩ := List.pairwise_cons.mp ordered
      cases isOut : window.out now stamp with
      | true =>
          rw [Window.evict, List.dropWhile_cons_of_pos isOut, Window.inside,
            List.filter_cons_of_neg (by rw [isOut]; exact Bool.false_ne_true)]
          exact ih ordered
      | false =>
          have allIn : ∀ other ∈ stamp :: rest, (!window.out now other) = true := by
            intro other listed
            rw [Bool.not_eq_true']
            obtain same | later := List.mem_cons.mp listed
            · rw [same, isOut]
            · by_contra outs
              have : window.out now stamp = true :=
                window.older (first other later) (by simpa using outs)
              rw [isOut] at this
              cases this
          have neg : ¬ window.out now stamp = true := by
            rw [isOut]
            exact Bool.false_ne_true
          rw [Window.evict, List.dropWhile_cons_of_neg neg, Window.inside,
            List.filter_eq_self.mpr allIn]

theorem Chronological.snoc (ordered : Chronological bucket)
    (latest : ∀ stamp ∈ bucket, stamp ≤ now) : Chronological (bucket ++ [now]) := by
  refine List.pairwise_append.mpr ⟨ordered, List.pairwise_singleton _ _, ?_⟩
  intro stamp listed other isLast
  rw [List.mem_singleton.mp isLast]
  exact latest stamp listed

/-- From `since` on the bucket shows of the window what the log does. -/
def Shows (window : Window Time) (log bucket : List Time) (since : Time) : Prop :=
  ∀ now, since ≤ now → window.inside now bucket = window.inside now log

theorem Shows.refl (window : Window Time) (log : List Time) (since : Time) :
    Shows window log log since := fun _ _ => rfl

theorem Shows.later {next : Time} (shows_ : Shows window log bucket since) (after : since ≤ next) :
    Shows window log bucket next :=
  fun now reached => shows_ now (le_trans after reached)

theorem Shows.snoc (shows_ : Shows window log bucket since) (stamp : Time) :
    Shows window (log ++ [stamp]) (bucket ++ [stamp]) since := by
  intro now reached
  rw [Window.inside, Window.inside, List.filter_append, List.filter_append]
  exact congrArg (· ++ _) (shows_ now reached)

theorem Shows.drop (shows_ : Shows window log bucket since) (after : since ≤ now)
    {gone : Time → Bool} (longer : ∀ stamp, gone stamp = true → window.out now stamp = true) :
    Shows window log (bucket.filter fun stamp => !gone stamp) now := by
  intro later reached
  rw [← shows_ later (le_trans after reached), Window.inside, List.filter_filter]
  refine List.filter_congr fun stamp _ => ?_
  cases isGone : gone stamp with
  | false => simp
  | true => simp [window.stays reached (longer stamp isGone)]

theorem Shows.evict {other : Window Time} (shows_ : Shows window log bucket since)
    (ordered : Chronological bucket) (after : since ≤ now)
    (longer : ∀ stamp, other.out now stamp = true → window.out now stamp = true) :
    Shows window log (other.evict now bucket) now := by
  rw [evict_eq_inside ordered]
  exact shows_.drop after longer

theorem Shows.evicted (shows_ : Shows window log bucket since) (ordered : Chronological bucket)
    (after : since ≤ now) : window.evict now bucket = window.inside now log := by
  rw [evict_eq_inside ordered]
  exact shows_ now after

end Buckets

end OdooSemantic.Lib.SlidingWindow
