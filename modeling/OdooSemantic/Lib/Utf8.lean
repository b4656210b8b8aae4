import OdooSemantic.Lib.Decoding
import Mathlib.Data.UInt

/-!
# UTF-8 with errors ignored

`bytes.decode("utf-8", errors="ignore")`: well-formed sequences are read, and
what belongs to none is dropped. The bytes of a broken sequence after its first
start no sequence either, so dropping byte by byte drops the same.
-/

namespace OdooSemantic.Lib.Utf8

open Lib.Decoding

def within (low high byte : UInt8) : Bool :=
  decide (low ≤ byte) && decide (byte ≤ high)

def tailCount (first : UInt8) : Option Nat :=
  if first < 0x80 then some 0
  else if within 0xC2 0xDF first then some 1
  else if within 0xE0 0xEF first then some 2
  else if within 0xF0 0xF4 first then some 3
  else none

/-- Neither overlong, nor a surrogate, nor past the last code point. -/
def secondFits (first second : UInt8) : Bool :=
  within (if first = 0xE0 then 0xA0 else if first = 0xF0 then 0x90 else 0x80)
    (if first = 0xED then 0x9F else if first = 0xF4 then 0x8F else 0xBF) second

def tailFits (first : UInt8) (tail : List UInt8) : Bool :=
  (tail.take 1).all (secondFits first) && tail.all (within 0x80 0xBF)

def codePoint (first : UInt8) (tail : List UInt8) : Nat :=
  tail.foldl (fun bits byte => bits * 64 + byte.toNat % 64)
    (if tail.length = 0 then first.toNat else first.toNat % 2 ^ (6 - tail.length))

def readChar : List UInt8 → Option (Char × Nat)
  | [] => none
  | first :: rest =>
      match tailCount first with
      | none => none
      | some count =>
          let tail := rest.take count
          if tail.length = count ∧ tailFits first tail = true then
            some (Char.ofNat (codePoint first tail), count + 1)
          else none

/-- What was read took at least a byte, no more than there are, and depends on these alone. -/
theorem readChar_taken {bytes : List UInt8} {char : Char} {size : Nat}
    (read : readChar bytes = some (char, size)) :
    0 < size ∧ size ≤ bytes.length ∧
      ∀ rest, readChar (bytes.take size ++ rest) = some (char, size) := by
  cases bytes with
  | nil => cases read
  | cons first others =>
      cases counted : tailCount first with
      | none =>
          simp only [readChar, counted] at read
          cases read
      | some count =>
          simp only [readChar, counted] at read
          by_cases fits : (others.take count).length = count ∧
              tailFits first (others.take count) = true
          · rw [if_pos fits] at read
            cases read
            have room : count ≤ others.length := by
              have length := fits.1
              rw [List.length_take] at length
              omega
            refine ⟨Nat.succ_pos _, Nat.succ_le_succ room, fun rest => ?_⟩
            have same : (others.take count ++ rest).take count = others.take count := by
              rw [List.take_append_of_le_length (le_of_eq fits.1.symm),
                List.take_of_length_le (le_of_eq fits.1)]
            rw [List.take_succ_cons, List.cons_append]
            simp only [readChar, counted, same]
            rw [if_pos fits]
          · rw [if_neg fits] at read
            cases read

def utf8 : Code UInt8 Char where
  read := readChar
  takes bytes char size read :=
    ⟨(readChar_taken read).1, (readChar_taken read).2.1⟩
  settled bytes char size read other starts := by
    obtain ⟨rest, rfl⟩ := starts
    exact (readChar_taken read).2.2 rest

/-- `bytes.decode("utf-8", errors="ignore")`. -/
def decodeIgnore (bytes : List UInt8) : List Char := utf8.decode bytes

def Ascii (bytes : List UInt8) : Prop := ∀ byte ∈ bytes, byte < 0x80

instance (bytes : List UInt8) : Decidable (Ascii bytes) :=
  inferInstanceAs (Decidable (∀ byte ∈ bytes, byte < 0x80))

theorem ascii_single (byte : UInt8) (rest : List UInt8) :
    byte < 0x80 ↔ ∃ char, utf8.read (byte :: rest) = some (char, 1) := by
  show byte < 0x80 ↔ ∃ char, readChar (byte :: rest) = some (char, 1)
  by_cases low : byte < 0x80
  · refine ⟨fun _ => ⟨Char.ofNat (codePoint byte []), ?_⟩, fun _ => low⟩
    have count : tailCount byte = some 0 := by rw [tailCount, if_pos low]
    simp only [readChar, count, List.take_zero]
    rfl
  · refine ⟨fun claimed => absurd claimed low, fun ⟨char, read⟩ => ?_⟩
    cases counted : tailCount byte with
    | none =>
        simp only [readChar, counted] at read
        cases read
    | some count =>
        have more : count ≠ 0 := by
          intro none
          rw [tailCount, if_neg low, none] at counted
          split at counted
          · cases counted
          split at counted
          · cases counted
          split at counted
          · cases counted
          · cases counted
        simp only [readChar, counted] at read
        split at read
        · simp only [Option.some.injEq, Prod.mk.injEq] at read
          omega
        · cases read

theorem length_decodeIgnore_eq_iff (bytes : List UInt8) :
    (decodeIgnore bytes).length = bytes.length ↔ Ascii bytes :=
  utf8.length_decode_eq_iff ascii_single bytes

theorem length_decodeIgnore_le (bytes : List UInt8) :
    (decodeIgnore bytes).length ≤ bytes.length :=
  utf8.length_decode_le bytes

end OdooSemantic.Lib.Utf8
