import OdooSemantic.Lib.Windows

/-!
# Texts cut at fixed places

A text is cut into pieces whose places do not depend on it: each begins at its place and
ends at its place or with the text, and the first that ends with the text is the last. Two
texts cut alike have the same pieces, as far as both go, exactly when they are the same or
one is the beginning of the other and ends where a piece does.
-/

set_option autoImplicit false

namespace OdooSemantic.Lib.Cuts

open Lib.Windows

/-- Where each piece begins, and where it ends unless the text does before. -/
structure Places where
  start : Nat → Nat
  stop : Nat → Nat
  first : start 0 = 0
  forward : ∀ place, start place ≤ stop place
  gapless : ∀ place, start (place + 1) ≤ stop place

section Cuts
variable {Symbol : Type} (cuts : Places)

inductive CutFrom (text : List Symbol) : Nat → List (List Symbol) → Prop where
  | last {place : Nat} (inside : cuts.start place ≤ text.length)
      (reaches : text.length ≤ cuts.stop place) :
      CutFrom text place [text.drop (cuts.start place)]
  | more {place : Nat} {others : List (List Symbol)} (short : cuts.stop place < text.length)
      (rest : CutFrom text (place + 1) others) :
      CutFrom text place (slice text (cuts.start place) (cuts.stop place) :: others)

inductive EndsFrom : Nat → Nat → Prop where
  | here {place length : Nat} (same : length = cuts.stop place) : EndsFrom place length
  | later {place length : Nat} (short : cuts.stop place < length)
      (ends : EndsFrom (place + 1) length) : EndsFrom place length

def Begins (left right : List Symbol) : Prop :=
  left = right ∨ (left <+: right ∧ EndsFrom cuts 0 left.length)

def PieceAt (text : List Symbol) (place : Nat) (piece : List Symbol) : Prop :=
  (∀ earlier, earlier < place → cuts.stop earlier < text.length) ∧
    piece = slice text (cuts.start place) (min (cuts.stop place) text.length)

end Cuts

section Agree
variable {Item : Type}

def Agree (left right : List Item) : Prop :=
  ∀ (place : Nat) one other, left[place]? = some one → right[place]? = some other → one = other

theorem agree_nil (right : List Item) : Agree [] right := by
  intro place one other first
  rw [List.getElem?_nil] at first
  cases first

theorem agree_cons {one other : Item} {left right : List Item} :
    Agree (one :: left) (other :: right) ↔ one = other ∧ Agree left right := by
  constructor
  · intro agree
    exact ⟨agree 0 one other rfl rfl, fun place => agree (place + 1)⟩
  · intro both place first second isFirst isSecond
    cases place with
    | zero =>
        cases isFirst
        cases isSecond
        exact both.1
    | succ place => exact both.2 place first second isFirst isSecond

end Agree

section Pieces
variable {Symbol : Type} {cuts : Places} {left right : List Symbol} {place : Nat}

theorem drop_take_same {start : Nat} (same : left.take start = right.take start)
    (rest : left.drop start = right.drop start) : left = right := by
  rw [← List.take_append_drop start left, same, rest, List.take_append_drop]

theorem take_of_slice {start stop : Nat} (forward : start ≤ stop)
    (same : left.take start = right.take start)
    (slices : slice left start stop = slice right start stop) :
    left.take stop = right.take stop := by
  have split : ∀ text : List Symbol, text.take stop = text.take start ++ slice text start stop := by
    intro text
    rw [slice, ← List.take_add, Nat.add_sub_cancel' forward]
  rw [split left, split right, same, slices]

theorem take_of_take {fewer more : Nat} (le : fewer ≤ more)
    (same : left.take more = right.take more) : left.take fewer = right.take fewer := by
  rw [← Nat.min_eq_left le, ← List.take_take, same, List.take_take]

theorem last_more {reach : Nat} (reached : cuts.start place ≤ reach)
    (same : left.take reach = right.take reach) (inside : cuts.start place ≤ left.length)
    (reaches : left.length ≤ cuts.stop place) (short : cuts.stop place < right.length) :
    left.drop (cuts.start place) = slice right (cuts.start place) (cuts.stop place) ↔
      left <+: right ∧ EndsFrom cuts place left.length := by
  have forward := cuts.forward place
  have front := take_of_take reached same
  constructor
  · intro equal
    have lengths := congrArg List.length equal
    rw [List.length_drop, length_slice] at lengths
    have ends : left.length = cuts.stop place := by omega
    refine ⟨?_, .here ends⟩
    have whole : left = right.take (cuts.stop place) := by
      rw [← List.take_append_drop (cuts.start place) left, front, equal, slice, ← List.take_add,
        Nat.add_sub_cancel' forward]
    rw [whole]
    exact List.take_prefix _ _
  · intro both
    obtain ⟨isPrefix, ends⟩ := both
    have length : left.length = cuts.stop place := by
      cases ends with
      | here equal => exact equal
      | later beyond _ => omega
    have whole := List.prefix_iff_eq_take.mp isPrefix
    rw [slice, ← length, ← List.drop_take, ← whole]

theorem agree_from {pieces others : List (List Symbol)} (cutLeft : CutFrom cuts left place pieces)
    (cutRight : CutFrom cuts right place others) {reach : Nat}
    (reached : cuts.start place ≤ reach) (same : left.take reach = right.take reach) :
    Agree pieces others ↔
      left = right ∨ (left <+: right ∧ EndsFrom cuts place left.length) ∨
        (right <+: left ∧ EndsFrom cuts place right.length) := by
  induction cutLeft generalizing others reach with
  | @last place inside reaches =>
      cases cutRight with
      | last insideRight reachesRight =>
          rw [agree_cons]
          constructor
          · intro both
            exact .inl (drop_take_same (take_of_take reached same) both.1)
          · intro either
            refine ⟨?_, agree_nil _⟩
            obtain equal | ⟨isPrefix, ends⟩ | ⟨isPrefix, ends⟩ := either
            · rw [equal]
            · cases ends with
              | here length =>
                  rw [isPrefix.eq_of_length_le (by omega)]
              | later beyond _ => omega
            · cases ends with
              | here length =>
                  rw [isPrefix.eq_of_length_le (by omega)]
              | later beyond _ => omega
      | more short rest =>
          rw [agree_cons, last_more reached same inside reaches short]
          constructor
          · intro both
            exact .inr (.inl both.1)
          · intro either
            refine ⟨?_, agree_nil _⟩
            obtain equal | begins | ⟨isPrefix, -⟩ := either
            · rw [equal] at reaches
              omega
            · exact begins
            · have bound := isPrefix.length_le
              omega
  | @more place pieces short rest ih =>
      cases cutRight with
      | last inside reaches =>
          rw [agree_cons, eq_comm, last_more reached same.symm inside reaches short]
          constructor
          · intro both
            exact .inr (.inr both.1)
          · intro either
            refine ⟨?_, fun place one other _ second => ?_⟩
            · obtain equal | ⟨isPrefix, -⟩ | begins := either
              · rw [equal] at short
                omega
              · have bound := isPrefix.length_le
                omega
              · exact begins
            · rw [List.getElem?_nil] at second
              cases second
      | more shortRight restRight =>
          have gapless := cuts.gapless place
          have forward := cuts.forward place
          have front := take_of_take reached same
          rw [agree_cons]
          constructor
          · intro both
            obtain ⟨slices, agree⟩ := both
            have further := take_of_slice forward front slices
            obtain equal | ⟨isPrefix, ends⟩ | ⟨isPrefix, ends⟩ :=
              (ih restRight gapless further).mp agree
            · exact .inl equal
            · exact .inr (.inl ⟨isPrefix, .later short ends⟩)
            · exact .inr (.inr ⟨isPrefix, .later shortRight ends⟩)
          · intro either
            have further : left.take (cuts.stop place) = right.take (cuts.stop place) := by
              have taken : ∀ {first second : List Symbol}, first <+: second →
                  cuts.stop place < first.length →
                    first.take (cuts.stop place) = second.take (cuts.stop place) := by
                intro first second isPrefix longer
                rw [List.prefix_iff_eq_take.mp isPrefix, List.take_take,
                  Nat.min_eq_left (Nat.le_of_lt longer)]
              obtain equal | ⟨isPrefix, -⟩ | ⟨isPrefix, -⟩ := either
              · rw [equal]
              · exact taken isPrefix short
              · exact (taken isPrefix shortRight).symm
            have slices : slice left (cuts.start place) (cuts.stop place) =
                slice right (cuts.start place) (cuts.stop place) := by
              rw [slice, slice, ← List.drop_take, ← List.drop_take, further]
            refine ⟨slices, (ih restRight gapless further).mpr ?_⟩
            obtain equal | ⟨isPrefix, ends⟩ | ⟨isPrefix, ends⟩ := either
            · exact .inl equal
            · cases ends with
              | here length => omega
              | later beyond rest => exact .inr (.inl ⟨isPrefix, rest⟩)
            · cases ends with
              | here length => omega
              | later beyond rest => exact .inr (.inr ⟨isPrefix, rest⟩)

theorem cuts_iff {pieces others : List (List Symbol)} (cutLeft : CutFrom cuts left 0 pieces)
    (cutRight : CutFrom cuts right 0 others) :
    Agree pieces others ↔ Begins cuts left right ∨ Begins cuts right left := by
  have start : cuts.start 0 ≤ 0 := Nat.le_of_eq cuts.first
  rw [agree_from cutLeft cutRight start rfl, Begins, Begins]
  constructor
  · intro either
    obtain equal | begins | begins := either
    · exact .inl (.inl equal)
    · exact .inl (.inr begins)
    · exact .inr (.inr begins)
  · intro either
    obtain (equal | begins) | (equal | begins) := either
    · exact .inl equal
    · exact .inr (.inl begins)
    · exact .inl equal.symm
    · exact .inr (.inr begins)

theorem piece_from {pieces : List (List Symbol)} (cut : CutFrom cuts left place pieces)
    {index : Nat} {piece : List Symbol} :
    pieces[index]? = some piece ↔
      (∀ earlier, earlier < index → cuts.stop (place + earlier) < left.length) ∧
        piece = slice left (cuts.start (place + index))
          (min (cuts.stop (place + index)) left.length) := by
  induction cut generalizing index with
  | @last place inside reaches =>
      cases index with
      | zero =>
          rw [List.getElem?_cons_zero, Option.some.injEq, Nat.add_zero,
            Nat.min_eq_right reaches, slice_all]
          constructor
          · intro same
            exact ⟨fun _ below => absurd below (Nat.not_lt_zero _), same.symm⟩
          · intro both
            exact both.2.symm
      | succ index =>
          rw [List.getElem?_cons_succ, List.getElem?_nil]
          constructor
          · intro none
            cases none
          · intro both
            have short := both.1 0 (Nat.succ_pos _)
            rw [Nat.add_zero] at short
            omega
  | @more place pieces short rest ih =>
      cases index with
      | zero =>
          rw [List.getElem?_cons_zero, Option.some.injEq, Nat.add_zero,
            Nat.min_eq_left (Nat.le_of_lt short)]
          constructor
          · intro same
            exact ⟨fun _ below => absurd below (Nat.not_lt_zero _), same.symm⟩
          · intro both
            exact both.2.symm
      | succ index =>
          have shift : place + (index + 1) = place + 1 + index := by omega
          rw [List.getElem?_cons_succ, ih, shift]
          constructor
          · intro both
            obtain ⟨all, same⟩ := both
            refine ⟨fun earlier below => ?_, same⟩
            cases earlier with
            | zero => exact short
            | succ earlier =>
                have further := all earlier (by omega)
                rwa [show place + (earlier + 1) = place + 1 + earlier by omega]
          · intro both
            obtain ⟨all, same⟩ := both
            refine ⟨fun earlier below => ?_, same⟩
            have further := all (earlier + 1) (by omega)
            rwa [show place + (earlier + 1) = place + 1 + earlier by omega] at further

theorem pieceAt_iff {pieces : List (List Symbol)} (cut : CutFrom cuts left 0 pieces)
    {index : Nat} {piece : List Symbol} :
    pieces[index]? = some piece ↔ PieceAt cuts left index piece := by
  rw [piece_from cut, PieceAt]
  simp only [Nat.zero_add]

end Pieces

section Windows
variable {Symbol : Type} (sizes : Sizes)

/-- How far a window is behind the one before it. -/
def advance : Nat := sizes.window - sizes.overlap

theorem advance_add : advance sizes + sizes.overlap = sizes.window := by
  have advances := sizes.advances
  rw [advance]
  omega

def windowPlaces : Places where
  start place := place * advance sizes
  stop place := place * advance sizes + sizes.window
  first := Nat.zero_mul _
  forward _ := Nat.le_add_right _ _
  gapless place := by
    have whole := advance_add sizes
    rw [Nat.succ_mul]
    omega

theorem cutFrom_windowsFrom (text : List Symbol) (place idx : Nat)
    (inside : place * advance sizes < text.length) :
    CutFrom (windowPlaces sizes) text place
      ((windowsFrom sizes text (place * advance sizes) idx).map Prod.snd) := by
  have whole := advance_add sizes
  generalize same : place * advance sizes = start
  induction start, idx using windowsFrom.induct sizes text generalizing place with
  | case1 start idx below last =>
      rw [windowsFrom, if_pos below, if_pos last, List.map_cons, List.map_nil, slice_all, ← same]
      rw [← same] at last
      exact .last (Nat.le_of_lt inside) last
  | case2 start idx below more ih =>
      have next : (place + 1) * advance sizes = start + sizes.window - sizes.overlap := by
        rw [Nat.succ_mul, same]
        omega
      have further := ih (place + 1) (by omega) next
      rw [windowsFrom, if_pos below, if_neg more, List.map_cons]
      rw [← same] at more ⊢
      rw [← same] at further
      exact .more (Nat.lt_of_not_le more) further
  | case3 start idx outside =>
      rw [same] at inside
      omega

theorem cutFrom_cut (text : List Symbol) :
    CutFrom (windowPlaces sizes) text 0 ((cut sizes text).map Prod.snd) := by
  have start : (windowPlaces sizes).start 0 = 0 := (windowPlaces sizes).first
  rw [cut]
  by_cases short : text.length ≤ sizes.window
  · rw [if_pos short]
    have one : CutFrom (windowPlaces sizes) text 0 [text.drop ((windowPlaces sizes).start 0)] := by
      refine .last (by omega) ?_
      have stop : (windowPlaces sizes).stop 0 = sizes.window := by
        show 0 * advance sizes + sizes.window = sizes.window
        rw [Nat.zero_mul, Nat.zero_add]
      omega
    rwa [start, List.drop_zero] at one
  · rw [if_neg short]
    have all := cutFrom_windowsFrom sizes text 0 0 (by omega)
    rwa [Nat.zero_mul] at all

theorem length_window {text : List Symbol} {place : Nat} {windows : List (List Symbol)}
    (cut : CutFrom (windowPlaces sizes) text place windows) :
    ∀ window ∈ windows, window.length ≤ sizes.window := by
  induction cut with
  | @last place inside reaches =>
      intro window listed
      have bound : text.length ≤ place * advance sizes + sizes.window := reaches
      rw [List.mem_singleton.mp listed, List.length_drop]
      show text.length - place * advance sizes ≤ _
      omega
  | @more place others short rest ih =>
      intro window listed
      obtain same | later := List.mem_cons.mp listed
      · rw [same, length_slice]
        show min (place * advance sizes + sizes.window - place * advance sizes) _ ≤ _
        omega
      · exact ih window later

end Windows

section Limit
variable {Symbol : Type} (sizes : Sizes) (limit : Nat)

/-- Pieces of one length, without overlap. -/
def limitPlaces : Places where
  start place := place * limit
  stop place := (place + 1) * limit
  first := Nat.zero_mul _
  forward place := Nat.mul_le_mul_right limit (Nat.le_succ place)
  gapless _ := Nat.le_refl _

def pieceCount : Nat := (sizes.window + limit - 1) / limit

variable {limit}

theorem pieceCount_spec (positive : 0 < limit) :
    sizes.window ≤ pieceCount sizes limit * limit ∧
      ∀ pieces, pieces < pieceCount sizes limit → pieces * limit < sizes.window := by
  constructor
  · have most := Nat.lt_mul_div_succ (sizes.window + limit - 1) positive
    rw [Nat.mul_succ, Nat.mul_comm] at most
    rw [pieceCount]
    omega
  · intro pieces below
    have least := (Nat.le_div_iff_mul_le positive).mp (Nat.succ_le_of_lt below)
    rw [Nat.succ_mul] at least
    omega

theorem pieceCount_pos (positive : 0 < limit) : 0 < pieceCount sizes limit := by
  have advances := sizes.advances
  have most := (pieceCount_spec sizes positive).1
  refine Nat.pos_of_ne_zero fun none => ?_
  rw [none, Nat.zero_mul] at most
  omega

/-- The pieces of all windows, one after the other. -/
def nestedPlaces (positive : 0 < limit) : Places where
  start place := place / pieceCount sizes limit * advance sizes +
    place % pieceCount sizes limit * limit
  stop place := place / pieceCount sizes limit * advance sizes +
    min ((place % pieceCount sizes limit + 1) * limit) sizes.window
  first := by rw [Nat.zero_div, Nat.zero_mod, Nat.zero_mul, Nat.zero_mul]
  forward place := by
    have inside := (pieceCount_spec sizes positive).2 _
      (Nat.mod_lt place (pieceCount_pos sizes positive))
    rw [Nat.succ_mul]
    omega
  gapless place := by
    have whole := advance_add sizes
    have count := pieceCount_pos sizes positive
    have below := Nat.mod_lt place count
    have most := (pieceCount_spec sizes positive).1
    have parts := Nat.div_add_mod place (pieceCount sizes limit)
    generalize place / pieceCount sizes limit = windows at parts ⊢
    generalize place % pieceCount sizes limit = pieces at parts below ⊢
    by_cases inner : pieces + 1 < pieceCount sizes limit
    · have split : place + 1 = pieceCount sizes limit * windows + (pieces + 1) := by omega
      have inside := (pieceCount_spec sizes positive).2 _ inner
      rw [split, Nat.mul_add_div count, Nat.mul_add_mod, Nat.div_eq_of_lt inner,
        Nat.mod_eq_of_lt inner, Nat.add_zero]
      omega
    · have all : pieces + 1 = pieceCount sizes limit := by omega
      have split : place + 1 = pieceCount sizes limit * (windows + 1) := by
        rw [Nat.mul_succ]
        omega
      rw [split, Nat.mul_div_cancel_left _ count, Nat.mul_mod_right, Nat.zero_mul, Nat.add_zero,
        all, Nat.succ_mul]
      omega

section Nested
variable {sizes} (positive : 0 < limit) {windows pieces : Nat}

theorem nested_start (below : pieces < pieceCount sizes limit) :
    (nestedPlaces sizes positive).start (pieceCount sizes limit * windows + pieces) =
      windows * advance sizes + pieces * limit := by
  show (_ / _) * _ + (_ % _) * _ = _
  rw [Nat.mul_add_div (pieceCount_pos sizes positive), Nat.mul_add_mod, Nat.div_eq_of_lt below,
    Nat.mod_eq_of_lt below, Nat.add_zero]

theorem nested_stop (below : pieces < pieceCount sizes limit) :
    (nestedPlaces sizes positive).stop (pieceCount sizes limit * windows + pieces) =
      windows * advance sizes + min ((pieces + 1) * limit) sizes.window := by
  show (_ / _) * _ + min ((_ % _ + 1) * _) _ = _
  rw [Nat.mul_add_div (pieceCount_pos sizes positive), Nat.mul_add_mod, Nat.div_eq_of_lt below,
    Nat.mod_eq_of_lt below, Nat.add_zero]

theorem slice_slice {text : List Symbol} {start stop first last : Nat}
    (inside : start + last ≤ stop) :
    slice (slice text start stop) first last = slice text (start + first) (start + last) := by
  rw [slice, drop_slice, slice, slice, List.take_take]
  congr 1
  omega

theorem cutFrom_nested_more {text : List Symbol} {others cutWindow : List (List Symbol)}
    (short : windows * advance sizes + sizes.window < text.length)
    (rest : CutFrom (nestedPlaces sizes positive) text
      (pieceCount sizes limit * (windows + 1)) others)
    (cut : CutFrom (limitPlaces limit) (slice text (windows * advance sizes)
      (windows * advance sizes + sizes.window)) pieces cutWindow)
    (below : pieces < pieceCount sizes limit) :
    CutFrom (nestedPlaces sizes positive) text (pieceCount sizes limit * windows + pieces)
      (cutWindow ++ others) := by
  have length : (slice text (windows * advance sizes)
      (windows * advance sizes + sizes.window)).length = sizes.window := by
    rw [length_slice]
    omega
  have start := @nested_start sizes _ positive windows pieces below
  have stop := @nested_stop sizes _ positive windows pieces below
  induction cut with
  | @last pieces inside reaches =>
      have all : pieces + 1 = pieceCount sizes limit := by
        by_contra other
        have fewer := (pieceCount_spec sizes positive).2 (pieces + 1) (by omega)
        have reached : sizes.window ≤ (pieces + 1) * limit := length ▸ reaches
        omega
      have reached : sizes.window ≤ (pieces + 1) * limit := length ▸ reaches
      have next : pieceCount sizes limit * windows + pieces + 1 =
          pieceCount sizes limit * (windows + 1) := by
        rw [Nat.mul_succ]
        omega
      have piece : (slice text (windows * advance sizes)
          (windows * advance sizes + sizes.window)).drop ((limitPlaces limit).start pieces) =
            slice text ((nestedPlaces sizes positive).start
              (pieceCount sizes limit * windows + pieces))
              ((nestedPlaces sizes positive).stop
                (pieceCount sizes limit * windows + pieces)) := by
        rw [drop_slice, start, stop, Nat.min_eq_right reached]
        rfl
      rw [piece, List.singleton_append]
      exact .more (by omega) (by rwa [next])
  | @more pieces cutWindow shortPiece restWindow ih =>
      have fewer : (pieces + 1) * limit < sizes.window := length ▸ shortPiece
      have inner : pieces + 1 < pieceCount sizes limit := by
        by_contra other
        have all : pieces + 1 = pieceCount sizes limit := by omega
        have most := (pieceCount_spec sizes positive).1
        rw [← all] at most
        omega
      have piece : slice (slice text (windows * advance sizes)
          (windows * advance sizes + sizes.window)) ((limitPlaces limit).start pieces)
            ((limitPlaces limit).stop pieces) =
          slice text ((nestedPlaces sizes positive).start
            (pieceCount sizes limit * windows + pieces))
            ((nestedPlaces sizes positive).stop (pieceCount sizes limit * windows + pieces)) := by
        have bound : windows * advance sizes + (limitPlaces limit).stop pieces ≤
            windows * advance sizes + sizes.window :=
          Nat.add_le_add_left (Nat.le_of_lt fewer) _
        rw [slice_slice bound, start, stop, Nat.min_eq_left (Nat.le_of_lt fewer)]
        rfl
      rw [piece, List.cons_append]
      exact .more (by omega) (ih inner (nested_start positive inner) (nested_stop positive inner))

theorem cutFrom_nested_last {text : List Symbol} {cutWindow : List (List Symbol)}
    (inside : windows * advance sizes ≤ text.length)
    (reaches : text.length ≤ windows * advance sizes + sizes.window)
    (cut : CutFrom (limitPlaces limit) (text.drop (windows * advance sizes)) pieces cutWindow)
    (below : pieces < pieceCount sizes limit) :
    CutFrom (nestedPlaces sizes positive) text (pieceCount sizes limit * windows + pieces)
      cutWindow := by
  have length : (text.drop (windows * advance sizes)).length =
      text.length - windows * advance sizes := List.length_drop
  have start := @nested_start sizes _ positive windows pieces below
  have stop := @nested_stop sizes _ positive windows pieces below
  induction cut with
  | @last pieces insidePiece reachesPiece =>
      have began : pieces * limit ≤ text.length - windows * advance sizes := length ▸ insidePiece
      have reached : text.length - windows * advance sizes ≤ (pieces + 1) * limit :=
        length ▸ reachesPiece
      have piece : (text.drop (windows * advance sizes)).drop ((limitPlaces limit).start pieces) =
          text.drop ((nestedPlaces sizes positive).start
            (pieceCount sizes limit * windows + pieces)) := by
        rw [List.drop_drop, start]
        rfl
      rw [piece]
      exact .last (by omega) (by omega)
  | @more pieces cutWindow shortPiece restWindow ih =>
      have fewer : (pieces + 1) * limit < text.length - windows * advance sizes :=
        length ▸ shortPiece
      have inner : pieces + 1 < pieceCount sizes limit := by
        by_contra other
        have all : pieces + 1 = pieceCount sizes limit := by omega
        have most := (pieceCount_spec sizes positive).1
        rw [← all] at most
        omega
      have piece : slice (text.drop (windows * advance sizes)) ((limitPlaces limit).start pieces)
            ((limitPlaces limit).stop pieces) =
          slice text ((nestedPlaces sizes positive).start
            (pieceCount sizes limit * windows + pieces))
            ((nestedPlaces sizes positive).stop (pieceCount sizes limit * windows + pieces)) := by
        have within : min ((pieces + 1) * limit) sizes.window = (pieces + 1) * limit :=
          Nat.min_eq_left (by omega)
        have shift : (limitPlaces limit).stop pieces - (limitPlaces limit).start pieces =
            windows * advance sizes + (pieces + 1) * limit -
              (windows * advance sizes + pieces * limit) := by
          show (pieces + 1) * limit - pieces * limit = _
          omega
        rw [start, stop, within, slice, slice, List.drop_drop, shift]
        rfl
      rw [piece]
      exact .more (by omega) (ih inner (nested_start positive inner) (nested_stop positive inner))

theorem cutFrom_nested {text : List Symbol} {cutWindows : List (List Symbol)}
    {split : List Symbol → List (List Symbol)}
    (splits : ∀ window, window.length ≤ sizes.window →
      CutFrom (limitPlaces limit) window 0 (split window))
    (cut : CutFrom (windowPlaces sizes) text windows cutWindows) :
    CutFrom (nestedPlaces sizes positive) text (pieceCount sizes limit * windows)
      (cutWindows.flatMap split) := by
  have count := pieceCount_pos sizes positive
  induction cut with
  | @last windows inside reaches =>
      rw [List.flatMap_cons, List.flatMap_nil, List.append_nil]
      have length : (text.drop (windows * advance sizes)).length ≤ sizes.window := by
        have bound : text.length ≤ windows * advance sizes + sizes.window := reaches
        rw [List.length_drop]
        omega
      exact cutFrom_nested_last positive inside reaches (splits _ length) count
  | @more windows others short rest ih =>
      rw [List.flatMap_cons]
      have length : (slice text (windows * advance sizes)
          (windows * advance sizes + sizes.window)).length ≤ sizes.window := by
        rw [length_slice]
        omega
      exact cutFrom_nested_more positive short ih (splits _ length) count

end Nested

end Limit

end OdooSemantic.Lib.Cuts
