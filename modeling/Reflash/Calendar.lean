import Reflash.Text.Digits

/-!
# Reflash.Calendar — dates of the Gregorian calendar

A moment is a number of seconds since the start of 1970.  Years are counted from March, so that the leap day is the
last day of its year and the months before it follow a fixed pattern of 153 days in five months.
-/

namespace Reflash

structure CalendarTime where
  year : Nat
  month : Nat
  day : Nat
  hour : Nat
  minute : Nat
  second : Nat
  deriving DecidableEq

namespace CalendarTime

/-- The date and the time of day, `seconds` after the start of 1970. -/
def ofSeconds (seconds : Nat) : CalendarTime :=
  let sinceMarch := seconds / 86400 + 719468
  let era := sinceMarch / 146097
  let dayOfEra := sinceMarch % 146097
  let yearOfEra := (dayOfEra - dayOfEra / 1460 + dayOfEra / 36524 - dayOfEra / 146096) / 365
  let dayOfYear := dayOfEra - (365 * yearOfEra + yearOfEra / 4 - yearOfEra / 100)
  let monthFromMarch := (5 * dayOfYear + 2) / 153
  let month := if monthFromMarch < 10 then monthFromMarch + 3 else monthFromMarch - 9
  { year := yearOfEra + era * 400 + (if month ≤ 2 then 1 else 0)
    month := month
    day := dayOfYear - (153 * monthFromMarch + 2) / 5 + 1
    hour := seconds % 86400 / 3600
    minute := seconds % 3600 / 60
    second := seconds % 60 }

/-- The year with four digits, or with a sign where it has more. -/
def yearText (year : Nat) : String :=
  if year < 10000 then Text.paddedDecimal 4 year else "+" ++ Text.decimal year

/-- The time as it stands in a file name: `year-month-day-hour_minute_second`, all but the year with two digits. -/
def stamp (t : CalendarTime) : String :=
  yearText t.year ++ "-" ++ Text.paddedDecimal 2 t.month ++ "-" ++ Text.paddedDecimal 2 t.day ++ "-"
    ++ Text.paddedDecimal 2 t.hour ++ "_" ++ Text.paddedDecimal 2 t.minute ++ "_" ++ Text.paddedDecimal 2 t.second

end CalendarTime

end Reflash
