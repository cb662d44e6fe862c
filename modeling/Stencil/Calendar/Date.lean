import Stencil.Decimal.Binary

/-! # Dates and times of day

Instants count nanoseconds from the first moment of 1970, in the proleptic Gregorian calendar and
without an offset. Every field of a date is a function of its day number, the days since then.
-/

namespace Stencil.Calendar

def greatestYear : Int := 9999

/-- A year with its month and day, each from one on. -/
structure Date where
  year : Int
  month : Nat
  day : Nat
  deriving DecidableEq, Repr

/-- Days from the first of March of year zero to the first of January 1970. -/
def marchEpoch : Int := 719468

/-- The date of a day number. Years begin in March here, so that the leap day is the last day of
its year, and 400 such years are 146097 days. -/
def Date.ofDays (days : Int) : Date :=
  let shifted := days + marchEpoch
  let era := shifted.fdiv 146097
  let dayOfEra := (shifted.fmod 146097).toNat
  let yearOfEra := (dayOfEra - dayOfEra / 1460 + dayOfEra / 36524 - dayOfEra / 146096) / 365
  let dayOfYear := dayOfEra - (365 * yearOfEra + yearOfEra / 4 - yearOfEra / 100)
  let monthFromMarch := (5 * dayOfYear + 2) / 153
  let month := if monthFromMarch < 10 then monthFromMarch + 3 else monthFromMarch - 9
  { year := yearOfEra + era * 400 + (if month ≤ 2 then 1 else 0)
    month := month
    day := dayOfYear - (153 * monthFromMarch + 2) / 5 + 1 }

/-- The day number of the first of January of a year. -/
def newYear (year : Int) : Int :=
  let before := year - 1
  365 * before + before.fdiv 4 - before.fdiv 100 + before.fdiv 400 - 719162

/-- The days of a year up to and with a day number. -/
def ordinal (days : Int) : Nat := (days - newYear (Date.ofDays days).year + 1).toNat

def daysFromMonday (days : Int) : Nat := ((days + 3).fmod 7).toNat

def daysFromSunday (days : Int) : Nat := ((days + 4).fmod 7).toNat

/-- The day number of the Monday of the week that holds the fourth of January of a year. -/
def isoNewYear (year : Int) : Int :=
  let fourth := newYear year + 3
  fourth - daysFromMonday fourth

/-- The year that the week of a day number counts to: the one its Thursday lies in. -/
def isoYear (days : Int) : Int := (Date.ofDays (days - daysFromMonday days + 3)).year

/-- The number of the week of a day number in the year it counts to. -/
def isoWeek (days : Int) : Nat := ((days - isoNewYear (isoYear days)).fdiv 7 + 1).toNat

/-- The number of the week of a day number when the first Sunday of a year begins week one. -/
def sundayWeek (days : Int) : Nat := (ordinal days + 6 - daysFromSunday days) / 7

/-- The number of the week of a day number when the first Monday of a year begins week one. -/
def mondayWeek (days : Int) : Nat := (ordinal days + 6 - daysFromMonday days) / 7

/-- An instant that has a date, as nanoseconds from the first moment of 1970. -/
structure Instant where
  nanos : Int
  deriving DecidableEq, Repr

namespace Instant

def perSecond : Int := 1000000000

def seconds (t : Instant) : Int := t.nanos.fdiv perSecond

def days (t : Instant) : Int := t.seconds.fdiv 86400

def secondOfDay (t : Instant) : Nat := (t.seconds.fmod 86400).toNat

def hour (t : Instant) : Nat := t.secondOfDay / 3600

def minute (t : Instant) : Nat := t.secondOfDay / 60 % 60

def second (t : Instant) : Nat := t.secondOfDay % 60

def nanosecond (t : Instant) : Nat := (t.nanos.fmod perSecond).toNat

def leastWide : Int := -170141183460469231731687303715884105728

def greatestWide : Int := 170141183460469231731687303715884105727

/-- The integer part of a double; beyond 128 bits the nearest end of their range, and zero for
what is not a number. -/
def truncate (x : Float) : Int :=
  match Decimal.Binary.ofFloat x with
  | .nan => 0
  | .infinite negative => if negative then leastWide else greatestWide
  | .finite negative mantissa exponent =>
    let size : Nat := mantissa * Nat.pow 2 exponent.toNat / Nat.pow 2 (-exponent).toNat
    if negative then max leastWide (-(size : Int)) else min greatestWide size

/-- The instant some seconds from the first moment of 1970, none when it has no date. Whole
seconds are counted in 64 bits and wrap around beyond them. -/
def ofSeconds? (seconds : Float) : Option Instant :=
  let nanos := truncate (seconds * Decimal.ofInt perSecond)
  let whole := (nanos.fdiv perSecond).bmod (Nat.pow 2 64)
  if newYear (-greatestYear) * 86400 ≤ whole ∧ whole < newYear (greatestYear + 1) * 86400 then
    some ⟨whole * perSecond + nanos.fmod perSecond⟩
  else none

end Instant

end Stencil.Calendar
