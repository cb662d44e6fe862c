import Stencil.Calendar.Date
import Stencil.Calendar.Pattern

/-! # Formatted dates

What each component of a pattern writes for an instant, in coordinated universal time.
-/

namespace Stencil.Calendar

def padded (padding : Padding) (width n : Nat) : List Char :=
  let digits := Nat.toDigits 10 n
  let missing := width - digits.length
  match padding with
  | .zero => List.replicate missing '0' ++ digits
  | .space => List.replicate missing ' ' ++ digits
  | .none => digits

def monthNames : List String :=
  ["January", "February", "March", "April", "May", "June", "July", "August", "September",
   "October", "November", "December"]

/-- The English names of the days of the week, from Monday on. -/
def weekdayNames : List String :=
  ["Monday", "Tuesday", "Wednesday", "Thursday", "Friday", "Saturday", "Sunday"]

/-- The name at a place, or its first three letters. -/
def nameAt (names : List String) (place : Nat) (short : Bool) : List Char :=
  let name := (names[place]?.getD "").toList
  if short then name.take 3 else name

/-- A minus before what lies below zero, and perhaps a plus before what does not. -/
def sign (negative signed : Bool) : List Char :=
  if negative then ['-'] else if signed then ['+'] else []

/-- A fraction of a second, given in nanoseconds, with as many digits as it needs but at least
one, of which `left` more could be dropped. -/
def shortFraction (width n : Nat) : Nat → List Char
  | 0 => padded .zero width n
  | left + 1 => if n % 10 = 0 then shortFraction (width - 1) (n / 10) left else padded .zero width n

/-- What a component writes for an instant; none for a year of more than four digits, which only
the week-based year of a first or last week can be. -/
def Component.format? (component : Component) (t : Instant) : Option (List Char) :=
  let date := Date.ofDays t.days
  match component with
  | day padding => some (padded padding 2 date.day)
  | hour padding twelve =>
    some (padded padding 2 (if twelve then (t.hour + 11) % 12 + 1 else t.hour))
  | minute padding => some (padded padding 2 t.minute)
  | second padding => some (padded padding 2 t.second)
  | subsecond (some digits) =>
    some (padded .zero digits (t.nanosecond / Nat.pow 10 (9 - digits)))
  | subsecond none => some (shortFraction 9 t.nanosecond 8)
  | period upper =>
    some (match decide (t.hour < 12), upper with
      | true, true => ['A', 'M']
      | true, false => ['a', 'm']
      | false, true => ['P', 'M']
      | false, false => ['p', 'm'])
  | month padding .numerical => some (padded padding 2 date.month)
  | month _ .long => some (nameAt monthNames (date.month - 1) false)
  | month _ .short => some (nameAt monthNames (date.month - 1) true)
  | ordinal padding => some (padded padding 3 (Calendar.ordinal t.days))
  | weekday .long _ => some (nameAt weekdayNames (daysFromMonday t.days) false)
  | weekday .short _ => some (nameAt weekdayNames (daysFromMonday t.days) true)
  | weekday .sunday oneIndexed =>
    some (padded .none 1 (daysFromSunday t.days + if oneIndexed then 1 else 0))
  | weekday .monday oneIndexed =>
    some (padded .none 1 (daysFromMonday t.days + if oneIndexed then 1 else 0))
  | weekNumber padding .iso => some (padded padding 2 (isoWeek t.days))
  | weekNumber padding .sunday => some (padded padding 2 (sundayWeek t.days))
  | weekNumber padding .monday => some (padded padding 2 (mondayWeek t.days))
  | year padding style isoWeek signed =>
    let year := if isoWeek then isoYear t.days else date.year
    let negative := decide (year < 0)
    match style with
    | .lastTwo => some (padded padding 2 (year.natAbs % 100))
    | .full =>
      if year.natAbs > greatestYear.toNat then none
      else some (sign negative signed ++ padded padding 4 year.natAbs)
    | .century =>
      if year.natAbs > greatestYear.toNat then none
      else some (sign negative signed ++ padded padding 2 (year.natAbs / 100))
  | offset padding signed => some (sign false signed ++ padded padding 2 0)
  | timestamp precision signed =>
    let count := match precision with
      | .second => t.seconds.natAbs
      | .millisecond => t.nanos.natAbs / 1000000
      | .microsecond => t.nanos.natAbs / 1000
      | .nanosecond => t.nanos.natAbs
    some (sign (decide (t.nanos < 0)) signed ++ Nat.toDigits 10 count)
  | nothing => some []

/-- What a piece of a pattern writes for an instant. -/
def Piece.format? (piece : Piece) (t : Instant) : Option (List Char) :=
  match piece with
  | .literal text => some text
  | .component what => what.format? t

def Pattern.format? (pattern : Pattern) (t : Instant) : Option String := do
  let pieces ← pattern.mapM (·.format? t)
  return String.ofList pieces.flatten

end Stencil.Calendar
