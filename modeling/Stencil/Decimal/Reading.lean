import Stencil.Decimal.Binary

/-! # Reading numbers

Integers are an optional sign and decimal digits, nothing else, and must fit. Decimals are an
optional sign, digits with at most one point, and an optional exponent; or a word for infinity or
for what is not a number. They are rounded once, exactly.
-/

namespace Stencil.Decimal

/-- The number the decimal digits write, none when one is not a digit or there is none. -/
def natural? (cs : List Char) : Option Nat :=
  if cs.isEmpty || !cs.all Char.isDigit then none
  else some (cs.foldl (fun n c => 10 * n + (c.toNat - 48)) 0)

/-- A number of at most `limit` with an optional plus sign. -/
def unsigned? (limit : Nat) (s : String) : Option Nat :=
  let digits := match s.toList with
    | '+' :: rest => rest
    | cs => cs
  (natural? digits).filter (· ≤ limit)

def greatestIndex : Nat := 18446744073709551615

def index? (s : String) : Option Nat := unsigned? greatestIndex s

def integer? : List Char → Option Int
  | '-' :: rest => (natural? rest).map fun n => -(n : Int)
  | '+' :: rest => (natural? rest).map Int.ofNat
  | cs => (natural? cs).map Int.ofNat

/-- The 64-bit integer, none when the integer does not fit. -/
def fit? (i : Int) : Option Int64 :=
  if -9223372036854775808 ≤ i ∧ i ≤ 9223372036854775807 then some (Int64.ofInt i) else none

def int64? (cs : List Char) : Option Int64 := (integer? cs).bind fit?

/-- The parts of an unsigned decimal: its digits without the point, and the power of ten they are
multiplied by. -/
structure Unsigned where
  digits : List Char
  exponent : Int

/-- An optional exponent: the letter in either case and an integer. -/
def exponent? : List Char → Option Int
  | [] => some 0
  | c :: rest => if c = 'e' ∨ c = 'E' then integer? rest else none

/-- The parts of an unsigned decimal, none when the characters are not one. -/
def Unsigned.ofChars? (cs : List Char) : Option Unsigned :=
  let whole := cs.takeWhile Char.isDigit
  let (fraction, rest) := match cs.dropWhile Char.isDigit with
    | '.' :: after => (after.takeWhile Char.isDigit, after.dropWhile Char.isDigit)
    | after => ([], after)
  if whole.isEmpty && fraction.isEmpty then none
  else (exponent? rest).map fun e => ⟨whole ++ fraction, e - fraction.length⟩

/-- The decimal rounded to a format. A magnitude that is out of every format's reach is decided
before the powers are computed. -/
def Unsigned.round (format : Format) (negative : Bool) (d : Unsigned) : Float :=
  let digits := d.digits.dropWhile (· == '0')
  let magnitude := d.exponent + digits.length
  let n := (natural? digits).getD 0
  if n = 0 ∨ magnitude < -400 then ofMagnitude negative 0
  else if magnitude > 400 then infinity negative
  else format.round negative (n * Nat.pow 10 d.exponent.toNat) (Nat.pow 10 (-d.exponent).toNat)

/-- An unsigned decimal or word, read in a format. -/
def magnitude? (format : Format) (negative : Bool) (cs : List Char) : Option Float :=
  let word := cs.map Char.toLower
  if word = ['n', 'a', 'n'] then some notANumber
  else if word = ['i', 'n', 'f'] ∨ word = ['i', 'n', 'f', 'i', 'n', 'i', 't', 'y'] then
    some (infinity negative)
  else (Unsigned.ofChars? cs).map (Unsigned.round format negative)

/-- A decimal with an optional sign, read in a format. -/
def read? (format : Format) : List Char → Option Float
  | '-' :: rest => magnitude? format true rest
  | '+' :: rest => magnitude? format false rest
  | cs => magnitude? format false cs

def float? (cs : List Char) : Option Float := read? double cs

end Stencil.Decimal
