import RollCall.Calendar.Date

/-!
# Time stamps

The date and the time of day of a moment, which is counted in seconds from the beginning of 1970.
-/

namespace RollCall

/-- A moment by calendar and clock. -/
structure Timestamp where
  /-- The year. -/
  year : Int
  /-- The month, from 1. -/
  month : Nat
  /-- The day of the month, from 1. -/
  day : Nat
  /-- The hour, from 0. -/
  hour : Nat
  /-- The minute, from 0. -/
  minute : Nat
  /-- The second, from 0. -/
  second : Nat
deriving DecidableEq

namespace Timestamp

/-- Year, month and day of a day that is counted from the first of January 1970.

Years are counted from the first of March, so that the leap day is the last of a year, and in eras of
400 years, after which the calendar repeats. -/
def civilOfDays (days : Int) : Int × Nat × Nat :=
  let shifted := days + 719468
  let era := shifted.fdiv 146097
  let dayOfEra := (shifted - era * 146097).toNat
  let yearOfEra := (dayOfEra - dayOfEra / 1460 + dayOfEra / 36524 - dayOfEra / 146096) / 365
  let dayOfYear := dayOfEra - (365 * yearOfEra + yearOfEra / 4 - yearOfEra / 100)
  let marchMonth := (5 * dayOfYear + 2) / 153
  let day := dayOfYear - (153 * marchMonth + 2) / 5 + 1
  let month := if marchMonth < 10 then marchMonth + 3 else marchMonth - 9
  let year := (yearOfEra : Int) + era * 400 + (if month ≤ 2 then 1 else 0)
  (year, month, day)

/-- The moment so many seconds after the beginning of 1970. -/
def ofSeconds (seconds : Int) : Timestamp :=
  let days := seconds.fdiv 86400
  let secondOfDay := (seconds - days * 86400).toNat
  let (year, month, day) := civilOfDays days
  ⟨year, month, day, secondOfDay / 3600, secondOfDay / 60 % 60, secondOfDay % 60⟩

example : ofSeconds 951782400 = ⟨2000, 2, 29, 0, 0, 0⟩ := by decide
example : ofSeconds (-1) = ⟨1969, 12, 31, 23, 59, 59⟩ := by decide

/-- The written form in file names, where a colon may not stand. -/
def fileText (t : Timestamp) : String :=
  let two := fun n => String.ofList (Text.zeroPadded 2 n)
  s!"{String.ofList (Date.yearText t.year)}-{two t.month}-{two t.day}" ++
    s!"T{two t.hour}-{two t.minute}-{two t.second}"

end Timestamp

end RollCall
