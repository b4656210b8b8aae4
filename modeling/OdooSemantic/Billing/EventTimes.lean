import Mathlib.Algebra.Order.Group.Abs
import Mathlib.Algebra.GroupWithZero.Nat
import Mathlib.Algebra.Order.Ring.Rat
import OdooSemantic.Lib.Decimal

/-!
# The event times of webhooks

The verifier reads the timestamp header as an integer; the extractor reads it as a date, and falls
back to the times of the payload.  Only times with an offset compare with the stored ones.
-/

set_option autoImplicit false

namespace OdooSemantic.Billing.EventTimes

open Lib.Decimal

abbrev Text := List Char

/-- The white space of `str.strip`, `str.split` and `int`. -/
def isSpace (ch : Char) : Bool :=
  [9, 10, 11, 12, 13, 28, 29, 30, 31, 32, 133, 160, 5760, 8192, 8193, 8194, 8195, 8196, 8197, 8198,
    8199, 8200, 8201, 8202, 8232, 8233, 8239, 8287, 12288].contains ch.toNat

def strip (text : Text) : Text :=
  ((text.dropWhile isSpace).reverse.dropWhile isSpace).reverse

/-- A `datetime`: the microseconds its clock shows, and its offset unless it is naive. -/
structure Moment where
  wall : Int
  offset : Option Int
  deriving DecidableEq

def Moment.instant (moment : Moment) : Option Int :=
  moment.offset.map (moment.wall - ·)

/-- `<` of two datetimes. -/
def Moment.before (moment other : Moment) : Except String Bool :=
  match moment.instant, other.instant with
  | some first, some second => .ok (first < second)
  | none, none => .ok (moment.wall < other.wall)
  | _, _ => .error "can't compare offset-naive and offset-aware datetimes"

def secondMicros : Int := 1000000

def dayMicros : Int := 86400 * secondMicros

/-- The clock at the start of 1970. -/
def epoch : Int := 719163 * dayMicros

def InYears (micros : Int) : Prop :=
  dayMicros ≤ epoch + micros ∧ epoch + micros < 3652060 * dayMicros

instance (micros : Int) : Decidable (InYears micros) :=
  inferInstanceAs (Decidable (_ ∧ _))

/-- `datetime.fromtimestamp(…, tz=UTC)`. -/
def fromTimestamp (micros : Int) : Option Moment :=
  if InYears micros then some ⟨epoch + micros, some 0⟩
  else none

/-! ## `datetime.fromisoformat` -/

def leap (year : Nat) : Bool := year % 4 = 0 && (year % 100 != 0 || year % 400 = 0)

def daysBeforeYear (year : Nat) : Nat :=
  (year - 1) * 365 + (year - 1) / 4 - (year - 1) / 100 + (year - 1) / 400

def monthLengths (year : Nat) : List Nat :=
  [31, if leap year then 29 else 28, 31, 30, 31, 30, 31, 31, 30, 31, 30, 31]

/-- The number of a day, counted from the first day of the year 1. -/
def ordinal (year month date : Nat) : Option Nat :=
  if 1 ≤ year ∧ 1 ≤ month ∧ 1 ≤ date ∧ date ≤ (monthLengths year).getD (month - 1) 0 then
    some (daysBeforeYear year + ((monthLengths year).take (month - 1)).sum + date)
  else none

def weekOrdinal (year week date : Nat) : Option Nat :=
  let first := daysBeforeYear year + 1
  let weekday := (first + 6) % 7
  let monday := if 3 < weekday then first + 7 - weekday else first - weekday
  let number := monday + (week - 1) * 7 + (date - 1)
  if 1 ≤ year ∧ 1 ≤ week ∧ (week ≤ 52 ∨ week = 53 ∧ (weekday = 3 ∨ weekday = 2 ∧ leap year)) ∧
      1 ≤ date ∧ date ≤ 7 ∧ number < 3652060 then some number
  else none

def field (width : Nat) (text : Text) : Option (Nat × Text) :=
  if text.length < width then none
  else (asciiDecimals.number (text.take width)).map (·, text.drop width)

def separated (used : Bool) (sep : Char) (text : Text) : Option Text :=
  if (text.head? == some sep) = used then some (if used then text.tail else text) else none

def parseDate (text : Text) : Option Nat := do
  let (year, rest) ← field 4 text
  let dashed := rest.head? == some '-'
  let rest ← separated dashed '-' rest
  if rest.head? = some 'W' then
    let (week, rest) ← field 2 rest.tail
    if rest = [] then weekOrdinal year week 1
    else
      let (date, rest) ← field 1 (← separated dashed '-' rest)
      if rest = [] then weekOrdinal year week date else none
  else
    let (month, rest) ← field 2 rest
    let (date, rest) ← field 2 (← separated dashed '-' rest)
    if rest = [] then ordinal year month date else none

/-- `_find_isoformat_datetime_separator`. -/
def separatorAt (text : Text) : Option Nat :=
  if text.length < 7 then none
  else if text.length = 7 then some 7
  else if text[4]? = some '-' then
    if text[5]? = some 'W' then
      if text[8]? = some '-' then
        if text.length = 9 then none
        else if text[10]?.any Char.isDigit then some 8
        else some 10
      else some 8
    else some 10
  else if text[4]? = some 'W' then
    let stop := 7 + ((text.drop 7).takeWhile Char.isDigit).length
    some (if stop < 9 then stop else if stop % 2 = 0 then 7 else 8)
  else some 8

/-- The microseconds after a decimal mark; digits beyond the sixth are cut off. -/
def fraction : Text → Option Nat
  | [] => some 0
  | mark :: digits =>
      if mark ∈ ['.', ','] ∧ digits.all Char.isDigit then
        (asciiDecimals.number (digits.take 6)).map (· * 10 ^ (6 - (digits.take 6).length))
      else none

structure Clock where
  hour : Nat
  minute : Nat := 0
  second : Nat := 0
  micros : Nat := 0

def Clock.total (clock : Clock) : Int :=
  ((clock.hour * 60 + clock.minute) * 60 + clock.second : Nat) * secondMicros + clock.micros

/-- `HH[:?MM[:?SS[.f+]]]`. -/
def parseClock (text : Text) : Option Clock := do
  let (hour, rest) ← field 2 text
  let colon := rest.head? == some ':'
  if rest = [] then return { hour }
  let (minute, rest) ← field 2 (← separated colon ':' rest)
  if rest = [] then return { hour, minute }
  let (second, rest) ← field 2 (← separated colon ':' rest)
  return { hour, minute, second, micros := ← fraction rest }

def zoneMarks : List Char := ['+', '-', 'Z']

/-- What stands behind the clock: nothing, `Z`, or an offset of less than a day. -/
def parseZone : Text → Option (Option Int)
  | [] => some none
  | mark :: zone =>
      if mark = 'Z' then if zone = [] then some (some 0) else none
      else (parseClock zone).bind fun clock =>
        if clock.total < dayMicros then some (some (if mark = '-' then -clock.total else clock.total))
        else none

def parseTime (text : Text) : Option (Int × Option Int) := do
  let clock ← parseClock (text.takeWhile (· ∉ zoneMarks))
  let offset ← parseZone (text.dropWhile (· ∉ zoneMarks))
  if clock.hour < 24 ∧ clock.minute < 60 ∧ clock.second < 60 then some (clock.total, offset)
  else none

/-- What stands behind the separator; a date alone is a midnight. -/
def parseRest (text : Text) : Option (Int × Option Int) :=
  if text = [] then some (0, none) else parseTime text

def fromIsoformat (text : Text) : Option Moment := do
  let place ← separatorAt text
  let number ← parseDate (text.take place)
  let (clock, offset) ← parseRest (text.drop (place + 1))
  some ⟨number * dayMicros + clock, offset⟩

/-- A value that JSON carries; a float is known by whether it is zero and by the microseconds it
rounds to, unless it is infinite or no number. -/
inductive Value where
  | null
  | bool (value : Bool)
  | int (value : Int)
  | float (zero : Bool) (micros : Option Int)
  | text (value : Text)
  | container (empty : Bool)

def Value.truthy : Value → Bool
  | .null => false
  | .bool value => value
  | .int value => value != 0
  | .float zero _ => !zero
  | .text value => value != []
  | .container empty => !empty

/-- A trailing `Z` as an offset. -/
def isoText (text : Text) : Text :=
  let stripped := strip text
  if stripped.getLast? = some 'Z' then stripped.dropLast ++ ['+', '0', '0', ':', '0', '0']
  else stripped

/-- `_parse_ts`. -/
def parseTs : Value → Option Moment
  | .null => none
  | .bool value => fromTimestamp (if value then secondMicros else 0)
  | .int value => fromTimestamp (value * secondMicros)
  | .float _ micros => micros.bind fromTimestamp
  | .text value => if strip value = [] then none else fromIsoformat (isoText value)
  | .container _ => none

/-- The times of the payload's `data`. -/
structure TimeFields where
  modifiedAt : Value
  createdAt : Value

/-- `data.get("modified_at") or data.get("created_at")`. -/
def TimeFields.time (fields : TimeFields) : Value :=
  if fields.modifiedAt.truthy then fields.modifiedAt else fields.createdAt

/-- `_extract_event_at`; without `data` when it is no object. -/
def extractEventAt (header : Option Text) (data : Option TimeFields) : Option Moment :=
  match header.bind fun text => parseTs (.text text) with
  | some moment => some moment
  | none => data.bind fun fields => parseTs fields.time

/-- The instant a time of the payload denotes, in microseconds since 1970. -/
inductive Denotes : Value → Int → Prop
  | bool (value : Bool) : Denotes (.bool value) (if value then secondMicros else 0)
  | int {value : Int} (inRange : InYears (value * secondMicros)) :
      Denotes (.int value) (value * secondMicros)
  | float {zero : Bool} {micros : Int} (inRange : InYears micros) :
      Denotes (.float zero (some micros)) micros
  | text {value : Text} {moment : Moment} {offset : Int}
      (read : fromIsoformat (isoText value) = some moment) (zoned : moment.offset = some offset) :
      Denotes (.text value) (moment.wall - offset - epoch)

section Denoting
variable {value : Value} {moment : Moment} {instant : Int}

theorem fromIsoformat_nil : fromIsoformat [] = none := rfl

end Denoting

section Integers
variable {text : Text}

end Integers

example : parseTs (.text "20260101".toList) = some ⟨739617 * dayMicros, none⟩ := by decide +kernel

example : (parseTs (.text "2026-01-01T01:00:00+01:00".toList)).bind Moment.instant =
    some (epoch + 1767225600 * secondMicros) := by
  decide +kernel

end OdooSemantic.Billing.EventTimes
