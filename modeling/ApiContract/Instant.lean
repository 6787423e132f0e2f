/-!
# Instants

A moment in universal time as seconds since 1970 and a fraction, and its text: date, time, and the
fraction in as few groups of three digits as it needs.

The day is found from the number of days by counting years from March in eras of four hundred years,
where the leap day is the last of its year; no table of months is needed. A leap second is the
second before it with a fraction of one second or more, as clocks report it. Moments of years that a
calendar of the usual width does not have are none (`ofParts?`).
-/

namespace ApiContract

/-- A moment: seconds since the beginning of 1970, and nanoseconds. A leap second is the second
before it with a fraction of one second or more. -/
structure Instant where
  seconds : Int
  nanoseconds : Nat
  deriving DecidableEq, Repr

/-- A day of the Gregorian calendar. -/
structure CalendarDay where
  year : Int
  month : Nat
  day : Nat
  deriving DecidableEq, Repr

/-- The day that is a number of days after the first of January 1970. Years are counted from March
here, in eras of four hundred years, so that the leap day is the last of its year. -/
def CalendarDay.ofDays (days : Int) : CalendarDay :=
  let shifted := days + 719468
  let era := shifted.fdiv 146097
  let dayOfEra := (shifted - era * 146097).toNat
  let yearOfEra := (dayOfEra - dayOfEra / 1460 + dayOfEra / 36524 - dayOfEra / 146096) / 365
  let dayOfYear := dayOfEra - (365 * yearOfEra + yearOfEra / 4 - yearOfEra / 100)
  let fromMarch := (5 * dayOfYear + 2) / 153
  let month := if fromMarch < 10 then fromMarch + 3 else fromMarch - 9
  { year := yearOfEra + era * 400 + (if month ≤ 2 then 1 else 0)
    month := month
    day := dayOfYear - (153 * fromMarch + 2) / 5 + 1 }

namespace Instant

/-- The instants that a calendar of years between -262143 and 262142 has. -/
def ofParts? (seconds : Int) (nanoseconds : Nat) : Option Instant :=
  if seconds < -8334601228800 ∨ 8210266876799 < seconds then none
  else if nanoseconds < 1000000000 ∨ (nanoseconds < 2000000000 ∧ seconds % 60 = 59) then
    some ⟨seconds, nanoseconds⟩
  else none

/-- A number with zeros in front, so that it has at least the given count of digits. -/
def padded (width n : Nat) : String :=
  let digits := Nat.toDigits 10 n
  String.ofList (List.replicate (width - digits.length) '0' ++ digits)

/-- A year: four digits, or a sign and more if it has not four. -/
def yearText (year : Int) : String :=
  if 0 ≤ year ∧ year ≤ 9999 then padded 4 year.toNat
  else (if year < 0 then "-" else "+") ++ padded 4 year.natAbs

/-- A fraction of a second: nothing, or a point and three, six or nine digits. -/
def fractionText (nanoseconds : Nat) : String :=
  if nanoseconds = 0 then ""
  else if nanoseconds % 1000000 = 0 then "." ++ padded 3 (nanoseconds / 1000000)
  else if nanoseconds % 1000 = 0 then "." ++ padded 6 (nanoseconds / 1000)
  else "." ++ padded 9 nanoseconds

/-- Date and time with a zone behind them, which is that of universal time under some name. -/
def render (instant : Instant) (zone : String) : String :=
  let date := CalendarDay.ofDays (instant.seconds.fdiv 86400)
  let second := (instant.seconds % 86400).toNat
  let leap := instant.nanoseconds / 1000000000
  yearText date.year ++ "-" ++ padded 2 date.month ++ "-" ++ padded 2 date.day ++ "T" ++
    padded 2 (second / 3600) ++ ":" ++ padded 2 (second / 60 % 60) ++ ":" ++
    padded 2 (second % 60 + leap) ++ fractionText (instant.nanoseconds % 1000000000) ++ zone

end Instant

end ApiContract
