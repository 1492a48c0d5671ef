import Sierra.Power
import Sierra.Text.Search

/-!
# Points in time

Microseconds from the start of 1970 in universal time, with dates of the Gregorian calendar carried
on in both directions.
-/

namespace Sierra

structure Instant where
  micros : Int
deriving DecidableEq, Repr, Inhabited

structure Date where
  year : Int
  month : Nat
  day : Nat
deriving DecidableEq, Repr

namespace Date

/-- Days are counted from the first of March of the year 0: 400 years have 146097 days, and the leap
day is the last of its year. -/
def ofDaysFromMarch (days : Int) : Date :=
  let cycle := days.fdiv 146097
  let inCycle := (days.fmod 146097).toNat
  let year := (inCycle - inCycle / 1460 + inCycle / 36524 - inCycle / 146096) / 365
  let inYear := inCycle - (365 * year + year / 4 - year / 100)
  let month := (5 * inYear + 2) / 153
  let day := inYear - (153 * month + 2) / 5 + 1
  let late := month ≥ 10
  ⟨cycle * 400 + year + (if late then 1 else 0), if late then month - 9 else month + 3, day⟩

def ofDays (days : Int) : Date := ofDaysFromMarch (days + 719468)

end Date

namespace Instant

/-- The calendar ends where 64 bits of seconds do. -/
def firstSecond : Int := -9223372028741760000

/-- Seconds, and nanoseconds of the microseconds, are counted in 64 bits; a second before the first
one of the calendar is found at its end. -/
def after (seconds micros : Int) : Instant :=
  let nanos := wrap64 (micros * 1000)
  let second := wrap64 (seconds + nanos.fdiv 1000000000)
  let second := if second < firstSecond then second + pow2 64 else second
  ⟨second * 1000000 + nanos.fmod 1000000000 / 1000⟩

def dayLength : Int := 86400 * 1000000

def date (t : Instant) : Date := Date.ofDays (t.micros.fdiv dayLength)

def inDay (t : Instant) : Nat := (t.micros.fmod dayLength).toNat

def zeros (width n : Nat) : String :=
  let digits := toString n
  String.ofList (List.replicate (width - digits.length) '0') ++ digits

def clockText (t : Instant) : String :=
  let seconds := t.inDay / 1000000
  zeros 2 (seconds / 3600) ++ ":" ++ zeros 2 (seconds / 60 % 60) ++ ":" ++
    zeros 2 (seconds % 60) ++ "." ++ zeros 6 (t.inDay % 1000000)

def text (t : Instant) : String :=
  let d := t.date
  (if d.year < 0 then "-" else "") ++ zeros 4 d.year.natAbs ++ "-" ++ zeros 2 d.month ++ "-" ++
    zeros 2 d.day ++ "T" ++ t.clockText ++ "Z"

end Instant

end Sierra
