import Mathlib.Data.List.Basic

/-!
# Codes of variable length

A reader takes one symbol off the front of a list of bytes. Decoding takes
symbol after symbol and drops each byte where none can be read.
-/

namespace OdooSemantic.Lib.Decoding

structure Code (Byte Symbol : Type) where
  read : List Byte → Option (Symbol × Nat)
  takes : ∀ bytes symbol size, read bytes = some (symbol, size) →
    0 < size ∧ size ≤ bytes.length
  settled : ∀ bytes symbol size, read bytes = some (symbol, size) →
    ∀ other, bytes.take size <+: other → read other = some (symbol, size)

namespace Code
variable {Byte Symbol : Type} (code : Code Byte Symbol)

/-- The symbols of the bytes after the first `skip`. -/
def decodeFrom : Nat → List Byte → List Symbol
  | _, [] => []
  | skip + 1, _ :: rest => decodeFrom skip rest
  | 0, byte :: rest =>
      match code.read (byte :: rest) with
      | some (symbol, size) => symbol :: decodeFrom (size - 1) rest
      | none => decodeFrom 0 rest

def decode (bytes : List Byte) : List Symbol :=
  code.decodeFrom 0 bytes

/-- Whether position `position` is not inside a symbol, the first `skip` bytes taken. -/
def betweenFrom : Nat → List Byte → Nat → Bool
  | 0, _, 0 => true
  | _ + 1, _, 0 => false
  | _, [], _ + 1 => false
  | skip + 1, _ :: rest, position + 1 => betweenFrom skip rest position
  | 0, byte :: rest, position + 1 =>
      match code.read (byte :: rest) with
      | some (_, size) => betweenFrom (size - 1) rest position
      | none => betweenFrom 0 rest position

/-- No symbol of the bytes reaches past position `position` from before it. -/
def between (bytes : List Byte) (position : Nat) : Bool :=
  code.betweenFrom 0 bytes position

theorem decodeFrom_skip (skip : Nat) (bytes : List Byte) :
    code.decodeFrom skip bytes = code.decode (bytes.drop skip) := by
  induction bytes generalizing skip with
  | nil =>
      rw [List.drop_nil, decode]
      cases skip with
      | zero | succ skip => rfl
  | cons byte rest ih =>
      cases skip with
      | zero => rfl
      | succ skip => exact ih skip

theorem decode_nil : code.decode [] = [] := rfl

variable {code}

theorem decode_read {bytes : List Byte} {symbol : Symbol} {size : Nat}
    (read : code.read bytes = some (symbol, size)) :
    code.decode bytes = symbol :: code.decode (bytes.drop size) := by
  obtain ⟨positive, inside⟩ := code.takes bytes symbol size read
  cases bytes with
  | nil =>
      rw [List.length_nil] at inside
      omega
  | cons byte rest =>
      obtain ⟨more, rfl⟩ : ∃ more, size = more + 1 := ⟨size - 1, by omega⟩
      simp only [decode, decodeFrom, read]
      rw [decodeFrom_skip, Nat.add_sub_cancel, decode]
      rfl

theorem decode_unread {byte : Byte} {rest : List Byte}
    (unread : code.read (byte :: rest) = none) :
    code.decode (byte :: rest) = code.decode rest := by
  simp only [decode, decodeFrom, unread]

theorem betweenFrom_skip {skip position : Nat} {bytes : List Byte}
    (between : code.betweenFrom skip bytes position = true) :
    skip ≤ position ∧ code.between (bytes.drop skip) (position - skip) = true := by
  induction bytes generalizing skip position with
  | nil =>
      cases skip with
      | zero => exact ⟨Nat.zero_le _, between⟩
      | succ skip =>
          cases position with
          | zero | succ position => cases between
  | cons byte rest ih =>
      cases skip with
      | zero => exact ⟨Nat.zero_le _, between⟩
      | succ skip =>
          cases position with
          | zero => cases between
          | succ position =>
              obtain ⟨within, after⟩ := ih between
              rw [Nat.add_sub_add_right]
              exact ⟨by omega, after⟩

/-- A later cut is between symbols of what an earlier one leaves. -/
theorem betweenFrom_drop {skip first last : Nat} {bytes : List Byte}
    (opens : code.betweenFrom skip bytes first = true)
    (closes : code.betweenFrom skip bytes last = true) (ordered : first ≤ last) :
    code.between (bytes.drop first) (last - first) = true := by
  induction bytes generalizing skip first last with
  | nil =>
      cases first with
      | zero =>
          cases skip with
          | zero => exact closes
          | succ skip => cases opens
      | succ first =>
          cases skip with
          | zero | succ skip => cases opens
  | cons byte rest ih =>
      cases first with
      | zero =>
          cases skip with
          | zero => exact closes
          | succ skip => cases opens
      | succ first =>
          obtain ⟨further, rfl⟩ : ∃ further, last = further + 1 := ⟨last - 1, by omega⟩
          have after : first ≤ further := by omega
          rw [Nat.add_sub_add_right]
          cases skip with
          | succ skip => exact ih opens closes after
          | zero =>
              simp only [betweenFrom] at opens closes
              cases read : code.read (byte :: rest) with
              | none | some found =>
                  rw [read] at opens closes
                  exact ih opens closes after

theorem decode_append {front back : List Byte}
    (apart : code.between (front ++ back) front.length = true) :
    code.decode (front ++ back) = code.decode front ++ code.decode back := by
  induction length : front.length using Nat.strongRecOn generalizing front with
  | ind count ih =>
  cases front with
  | nil => rfl
  | cons byte rest =>
      rw [List.cons_append] at apart ⊢
      cases whole : code.read (byte :: (rest ++ back)) with
      | some found =>
          obtain ⟨symbol, size⟩ := found
          obtain ⟨positive, inside⟩ := code.takes _ _ _ whole
          simp only [between, List.length_cons, betweenFrom, whole] at apart
          obtain ⟨within, after⟩ := betweenFrom_skip apart
          have fits : size ≤ rest.length + 1 := by omega
          have here : code.read (byte :: rest) = some (symbol, size) := by
            refine code.settled _ _ _ whole _ ?_
            rw [← List.cons_append, List.take_append_of_le_length (by simpa using fits)]
            exact List.take_prefix _ _
          obtain ⟨more, rfl⟩ : ∃ more, size = more + 1 := ⟨size - 1, by omega⟩
          rw [Nat.add_sub_cancel] at after within
          have left : (rest ++ back).drop more = rest.drop more ++ back :=
            List.drop_append_of_le_length within
          rw [left, ← List.length_drop] at after
          have shorter : (rest.drop more).length < count := by
            rw [← length, List.length_drop, List.length_cons]
            omega
          rw [decode_read whole, decode_read here, List.drop_succ_cons, List.drop_succ_cons, left,
            ih _ shorter after rfl, List.cons_append]
      | none =>
          have here : code.read (byte :: rest) = none := by
            cases alone : code.read (byte :: rest) with
            | none => rfl
            | some found =>
                obtain ⟨symbol, size⟩ := found
                have wide := code.settled _ _ _ alone (byte :: (rest ++ back))
                  ((List.take_prefix _ _).trans ⟨back, rfl⟩)
                rw [whole] at wide
                cases wide
          simp only [between, List.length_cons, betweenFrom, whole] at apart
          rw [decode_unread whole, decode_unread here]
          exact ih rest.length (by rw [← length]; exact Nat.lt_succ_self _) apart rfl

theorem decode_parts {bytes : List Byte} {first last : Nat}
    (opens : code.between bytes first = true) (closes : code.between bytes last = true)
    (ordered : first ≤ last) (inside : last ≤ bytes.length) :
    code.decode bytes = code.decode (bytes.take first) ++
      (code.decode ((bytes.drop first).take (last - first)) ++ code.decode (bytes.drop last)) := by
  have middle := betweenFrom_drop opens closes ordered
  have front : (bytes.take first).length = first := by
    rw [List.length_take]
    omega
  have back : ((bytes.drop first).take (last - first)).length = last - first := by
    rw [List.length_take, List.length_drop]
    omega
  have skip : (bytes.drop first).drop (last - first) = bytes.drop last := by
    rw [List.drop_drop]
    congr 1
    omega
  have once : code.decode bytes =
      code.decode (bytes.take first) ++ code.decode (bytes.drop first) := by
    rw [← decode_append (by rw [front, List.take_append_drop]; exact opens),
      List.take_append_drop]
  have again : code.decode (bytes.drop first) =
      code.decode ((bytes.drop first).take (last - first)) ++ code.decode (bytes.drop last) := by
    rw [← skip, ← decode_append (by rw [back, List.take_append_drop]; exact middle),
      List.take_append_drop]
  rw [once, again]

theorem length_decode_le (bytes : List Byte) : (code.decode bytes).length ≤ bytes.length := by
  induction length : bytes.length using Nat.strongRecOn generalizing bytes with
  | ind count ih =>
  cases bytes with
  | nil => exact Nat.zero_le _
  | cons byte rest =>
      cases here : code.read (byte :: rest) with
      | some found =>
          obtain ⟨symbol, size⟩ := found
          obtain ⟨positive, inside⟩ := code.takes _ _ _ here
          have fewer := ih _ (by rw [← length, List.length_drop]; omega)
            ((byte :: rest).drop size) rfl
          rw [List.length_drop] at fewer
          rw [decode_read here, List.length_cons]
          omega
      | none =>
          rw [List.length_cons] at length
          have fewer := ih rest.length (by omega) rest rfl
          rw [decode_unread here]
          omega

theorem length_decode_eq_iff {single : Byte → Prop}
    (alone : ∀ byte rest, single byte ↔ ∃ symbol, code.read (byte :: rest) = some (symbol, 1))
    (bytes : List Byte) :
    (code.decode bytes).length = bytes.length ↔ ∀ byte ∈ bytes, single byte := by
  induction bytes with
  | nil => exact ⟨fun _ byte inside => absurd inside List.not_mem_nil, fun _ => rfl⟩
  | cons byte rest ih =>
      rw [List.forall_mem_cons]
      by_cases here : single byte
      · obtain ⟨symbol, read⟩ := (alone byte rest).mp here
        rw [decode_read read, List.length_cons, List.length_cons, List.drop_succ_cons,
          List.drop_zero, Nat.add_right_cancel_iff, ih]
        exact ⟨fun others => ⟨here, others⟩, fun all => all.2⟩
      · refine ⟨fun same => ?_, fun all => absurd all.1 here⟩
        cases read : code.read (byte :: rest) with
        | none =>
            have fewer := @length_decode_le _ _ code rest
            rw [decode_unread read, List.length_cons] at same
            omega
        | some found =>
            obtain ⟨symbol, size⟩ := found
            obtain ⟨positive, inside⟩ := code.takes _ _ _ read
            have wide : size ≠ 1 := by
              intro one
              rw [one] at read
              exact here ((alone byte rest).mpr ⟨symbol, read⟩)
            have fewer := @length_decode_le _ _ code ((byte :: rest).drop size)
            rw [List.length_drop] at fewer
            rw [decode_read read, List.length_cons, List.length_cons] at same
            rw [List.length_cons] at fewer inside
            omega

end Code

end OdooSemantic.Lib.Decoding
