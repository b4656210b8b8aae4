import Mathlib.Data.List.Basic

/-!
# Numbers written in decimal digits

Which characters are digits, and of what value, is a table; the ASCII digits are in it.  What
is written for a number reads as that number.
-/

set_option autoImplicit false

namespace OdooSemantic.Lib.Decimal

/-- The characters of `\d` with the value `int()` gives them. -/
structure Decimals where
  value : Char → Option Nat
  ascii : ∀ char : Char, char.isDigit = true → value char = some (char.toNat - '0'.toNat)
  dot : value '.' = none

def asciiDecimals : Decimals where
  value char := if char.isDigit then some (char.toNat - '0'.toNat) else none
  ascii _ digit := if_pos digit
  dot := rfl

/-- `int()` of one digit or more. -/
def Decimals.number (decimals : Decimals) (digits : List Char) : Option Nat :=
  if digits.isEmpty then none
  else (digits.mapM decimals.value).map fun values =>
    values.foldl (fun number value => 10 * number + value) 0

theorem Decimals.mapM_ascii (decimals : Decimals) (digits : List Char)
    (all : ∀ char ∈ digits, char.isDigit = true) :
    digits.mapM decimals.value = some (digits.map fun char => char.toNat - '0'.toNat) := by
  induction digits with
  | nil => rfl
  | cons first rest ih =>
      rw [List.mapM_cons, decimals.ascii first (all first List.mem_cons_self),
        ih fun char listed => all char (List.mem_cons_of_mem first listed)]
      rfl

theorem Decimals.number_toDigits (decimals : Decimals) (number : Nat) :
    decimals.number (Nat.toDigits 10 number) = some number := by
  have digits : ∀ char ∈ Nat.toDigits 10 number, char.isDigit = true :=
    fun char listed => Nat.isDigit_of_mem_toDigits (by decide) (by decide) listed
  have some : ¬ (Nat.toDigits 10 number).isEmpty = true := by
    rw [List.isEmpty_iff]
    exact Nat.toDigits_ne_nil
  have read : ((Nat.toDigits 10 number).map fun char => char.toNat - '0'.toNat).foldl
      (fun number value => 10 * number + value) 0 = number := by
    rw [List.foldl_map]
    exact Nat.ofDigitChars_ten_toDigits
  rw [Decimals.number, if_neg some, decimals.mapM_ascii _ digits, Option.map_some, read]

theorem dot_notMem_toDigits (number : Nat) : '.' ∉ Nat.toDigits 10 number := by
  intro listed
  have digit := Nat.isDigit_of_mem_toDigits (b := 10) (by decide) (by decide) listed
  exact absurd digit (by decide)

end OdooSemantic.Lib.Decimal
