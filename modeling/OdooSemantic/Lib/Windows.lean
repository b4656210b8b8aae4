import Mathlib.Data.List.Basic

/-!
# Overlapping windows

A long text is cut into windows of one size; each window begins with the last
symbols of the one before it. Dropping these again gives the text back.
-/

namespace OdooSemantic.Lib.Windows

/-- How long a window is and how much of it the next window repeats. -/
structure Sizes where
  window : Nat
  overlap : Nat
  advances : overlap < window

section Slices
variable {Symbol : Type}

/-- `text[start:stop]`, for `start ≤ stop`. -/
def slice (text : List Symbol) (start stop : Nat) : List Symbol :=
  (text.drop start).take (stop - start)

theorem slice_append (text : List Symbol) {start middle stop : Nat}
    (first : start ≤ middle) (last : middle ≤ stop) :
    slice text start middle ++ slice text middle stop = slice text start stop := by
  have skip : text.drop middle = (text.drop start).drop (middle - start) := by
    rw [List.drop_drop]
    congr 1
    omega
  have whole : stop - start = (middle - start) + (stop - middle) := by omega
  rw [slice, slice, slice, skip, whole, List.take_add]

theorem slice_all (text : List Symbol) (start : Nat) :
    slice text start text.length = text.drop start := by
  rw [slice, ← List.length_drop, List.take_length]

theorem drop_slice (text : List Symbol) (start stop skip : Nat) :
    (slice text start stop).drop skip = slice text (start + skip) stop := by
  rw [slice, slice, List.drop_take, List.drop_drop]
  congr 1
  omega

theorem length_slice (text : List Symbol) (start stop : Nat) :
    (slice text start stop).length = min (stop - start) (text.length - start) := by
  rw [slice, List.length_take, List.length_drop]

end Slices

section Windows
variable {Symbol : Type} (sizes : Sizes)

/-- The windows from `start` on, numbered from `idx`. -/
def windowsFrom (text : List Symbol) (start idx : Nat) : List (Nat × List Symbol) :=
  if start < text.length then
    if text.length ≤ start + sizes.window then
      [(idx, slice text start text.length)]
    else
      (idx, slice text start (start + sizes.window)) ::
        windowsFrom text (start + sizes.window - sizes.overlap) (idx + 1)
  else
    []
termination_by text.length - start
decreasing_by
  have advances := sizes.advances
  omega

/-- A text within one window is left whole, also the empty one. -/
def cut (text : List Symbol) : List (Nat × List Symbol) :=
  if text.length ≤ sizes.window then [(0, text)] else windowsFrom sizes text 0 0

/-- The text of numbered windows, what each repeats of the one before it dropped. -/
def rejoin : List (Nat × List Symbol) → List Symbol
  | [] => []
  | (_, first) :: others => first ++ others.flatMap fun window => window.2.drop sizes.overlap

variable {sizes}

theorem windowsFrom_tail (text : List Symbol) (start idx : Nat)
    (room : start + sizes.overlap ≤ text.length) :
    (windowsFrom sizes text start idx).flatMap (fun window => window.2.drop sizes.overlap) =
      text.drop (start + sizes.overlap) := by
  have advances := sizes.advances
  induction start, idx using windowsFrom.induct sizes text with
  | case1 start idx inside last =>
      rw [windowsFrom, if_pos inside, if_pos last, List.flatMap_cons, List.flatMap_nil,
        List.append_nil, drop_slice, slice_all]
  | case2 start idx inside more ih =>
      have next : start + sizes.window - sizes.overlap + sizes.overlap =
          start + sizes.window := by omega
      rw [next] at ih
      have rest := ih (by omega)
      rw [windowsFrom, if_pos inside, if_neg more, List.flatMap_cons, rest, drop_slice,
        ← slice_all text (start + sizes.window), slice_append text (by omega) (by omega),
        slice_all]
  | case3 start idx outside =>
      have none : text.drop (start + sizes.overlap) = [] :=
        List.drop_eq_nil_of_le (by omega)
      rw [windowsFrom, if_neg outside, none, List.flatMap_nil]

theorem cut_ne_nil (text : List Symbol) : cut sizes text ≠ [] := by
  rw [cut]
  by_cases short : text.length ≤ sizes.window
  · rw [if_pos short]
    exact List.cons_ne_nil _ _
  · have inside : 0 < text.length := by omega
    have more : ¬ text.length ≤ 0 + sizes.window := by omega
    rw [if_neg short, windowsFrom, if_pos inside, if_neg more]
    exact List.cons_ne_nil _ _

theorem rejoin_cut (text : List Symbol) : rejoin sizes (cut sizes text) = text := by
  have advances := sizes.advances
  rw [cut]
  by_cases short : text.length ≤ sizes.window
  · rw [if_pos short, rejoin, List.flatMap_nil, List.append_nil]
  · have inside : 0 < text.length := by omega
    have more : ¬ text.length ≤ 0 + sizes.window := by omega
    have next : 0 + sizes.window - sizes.overlap + sizes.overlap = 0 + sizes.window := by omega
    rw [if_neg short, windowsFrom, if_pos inside, if_neg more, rejoin,
      windowsFrom_tail text _ _ (by omega), next, ← slice_all text (0 + sizes.window),
      slice_append text (by omega) (by omega), slice_all, List.drop_zero]

theorem windowsFrom_numbers (text : List Symbol) (start idx : Nat) :
    (windowsFrom sizes text start idx).map Prod.fst =
      List.range' idx (windowsFrom sizes text start idx).length := by
  induction start, idx using windowsFrom.induct sizes text with
  | case1 start idx inside last =>
      rw [windowsFrom, if_pos inside, if_pos last]
      rfl
  | case2 start idx inside more ih =>
      rw [windowsFrom, if_pos inside, if_neg more, List.map_cons, ih, List.length_cons,
        List.range'_succ]
  | case3 start idx outside =>
      rw [windowsFrom, if_neg outside]
      rfl

theorem cut_numbers (text : List Symbol) :
    (cut sizes text).map Prod.fst = List.range (cut sizes text).length := by
  rw [cut]
  by_cases short : text.length ≤ sizes.window
  · rw [if_pos short]
    rfl
  · rw [if_neg short, windowsFrom_numbers, List.range_eq_range']

end Windows

end OdooSemantic.Lib.Windows
