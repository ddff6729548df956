import RollCall.Text.Blank
import RollCall.Text.Decimal
import RollCall.Text.Find

/-!
# Dates

Days of the proleptic Gregorian calendar. The year 0 exists, and years may be negative.

A date is written as year, month and day with hyphens between them. Reading is more generous than
writing: single digits are accepted, and blanks in front of a number; a year with a sign may have any
number of digits, one without a sign has at most four.
-/

namespace RollCall

/-- Whether the year has a 29th of February. -/
def isLeapYear (year : Int) : Bool :=
  year % 4 == 0 && (year % 100 != 0 || year % 400 == 0)

/-- Number of days of a month. -/
def daysInMonth (year : Int) (month : Nat) : Nat :=
  if month = 2 then
    if isLeapYear year then 29 else 28
  else if month = 4 ∨ month = 6 ∨ month = 9 ∨ month = 11 then 30
  else 31

/-- A day of the calendar. -/
structure Date where
  /-- The year; the year before 1 is 0. -/
  year : Int
  /-- The month, January being 1. -/
  month : Nat
  /-- The day of the month, from 1. -/
  day : Nat
  /-- The years that the calendar covers. -/
  year_range : -262143 ≤ year ∧ year ≤ 262142
  /-- A year has twelve months. -/
  month_range : 1 ≤ month ∧ month ≤ 12
  /-- The month has this day. -/
  day_range : 1 ≤ day ∧ day ≤ daysInMonth year month
deriving DecidableEq

namespace Date

/-- The date with these parts, if the calendar has it. -/
def ofParts? (year : Int) (month day : Nat) : Option Date :=
  if hy : -262143 ≤ year ∧ year ≤ 262142 then
    if hm : 1 ≤ month ∧ month ≤ 12 then
      if hd : 1 ≤ day ∧ day ≤ daysInMonth year month then some ⟨year, month, day, hy, hm, hd⟩
      else none
    else none
  else none

theorem ofParts?_eq_some (date : Date) :
    ofParts? date.year date.month date.day = some date := by
  unfold ofParts?
  rw [dif_pos date.year_range, dif_pos date.month_range, dif_pos date.day_range]

/-- Whether a date comes before another. -/
def isBefore (a b : Date) : Bool :=
  decide (a.year < b.year ∨ (a.year = b.year ∧
    (a.month < b.month ∨ (a.month = b.month ∧ a.day < b.day))))

/-- A year is written with at least four digits; one outside 0 to 9999 has a sign. -/
def yearText (year : Int) : List Char :=
  if 0 ≤ year ∧ year ≤ 9999 then Text.zeroPadded 4 year.toNat
  else (if year < 0 then '-' else '+') :: Text.zeroPadded 4 year.natAbs

/-- The written form of a date. -/
def chars (date : Date) : List Char :=
  yearText date.year ++ '-' :: (Text.zeroPadded 2 date.month ++ '-' :: Text.zeroPadded 2 date.day)

/-- The written form of a date. -/
def text (date : Date) : String :=
  String.ofList date.chars

instance : ToString Date := ⟨text⟩

/-! ## Reading -/

/-- A number of at most `limit` digits at the front of a text, and what follows it. -/
def readNumber? (limit : Nat) (text : List Char) : Option (Nat × List Char) :=
  let digits := (text.take limit).takeWhile Char.isDigit
  if digits = [] then none
  else some (Text.decimalValue digits, text.drop digits.length)

/-- A year at the front of a text: after a sign any number of digits, otherwise at most four. -/
def readYear? : List Char → Option (Int × List Char)
  | '-' :: text => (readNumber? text.length text).map fun (n, rest) => (-(n : Int), rest)
  | '+' :: text => (readNumber? text.length text).map fun (n, rest) => ((n : Int), rest)
  | text => (readNumber? 4 text).map fun (n, rest) => ((n : Int), rest)

/-- Whether blanks may also stand before a hyphen and at the end. -/
inductive Spacing where
  /-- Blanks may stand in front of numbers only. -/
  | tight
  /-- Blanks may stand around numbers. -/
  | loose
deriving DecidableEq

/-- The text that follows a number, where the blanks that may stand there are skipped. -/
def Spacing.skip : Spacing → List Char → List Char
  | tight, text => text
  | loose, text => Text.trimStart text

/-- The date that a text spells. -/
def read? (spacing : Spacing) (text : List Char) : Option Date := do
  let (year, text) ← readYear? (Text.trimStart text)
  let text ← Text.after? ['-'] (spacing.skip text)
  let (month, text) ← readNumber? 2 (Text.trimStart text)
  let text ← Text.after? ['-'] (spacing.skip text)
  let (day, text) ← readNumber? 2 (Text.trimStart text)
  if spacing.skip text = [] then ofParts? year month day else none

end Date

end RollCall
