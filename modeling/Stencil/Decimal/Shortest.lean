import Stencil.Decimal.Binary

/-! # The shortest decimal that reads back

A finite double owns the interval of reals that round to it, with both ends when its mantissa is
even. The shortest decimal is found by trying one digit, two digits, up to seventeen: on each grid
only the two neighbours of the exact value can be the nearest point inside the interval. Of two
neighbours that both lie inside, the nearer wins, and the upper one when they are equally near.
-/

namespace Stencil.Decimal

/-- A positive decimal `digits * 10 ^ exponent`. -/
structure Digits where
  digits : Nat
  exponent : Int
  deriving DecidableEq, Repr

/-- How many decimal digits a number has; zero has none. -/
def digitCount (n : Nat) : Nat := if n = 0 then 0 else (Nat.toDigits 10 n).length

/-- The exponent `k` with `10 ^ (k - 1) ≤ num / den < 10 ^ k`, for positive arguments. -/
def decimalExponent (num den : Nat) : Int :=
  if den ≤ num then digitCount (num / den) else 1 - (digitCount ((den + num - 1) / num - 1) : Int)

/-- The interval of reals that round to a double, over the common denominator `den`. -/
structure Interval where
  low : Nat
  value : Nat
  high : Nat
  den : Nat
  closed : Bool

/-- The interval of `mantissa * 2 ^ exponent`. The gap below a power of two is half as wide,
except below the smallest normal number. -/
def Interval.ofParts (mantissa : Nat) (exponent : Int) : Interval :=
  let up := Nat.pow 2 (exponent - 2).toNat
  let below := if mantissa = Nat.pow 2 52 ∧ exponent > -1074 then 1 else 2
  { low := (4 * mantissa - below) * up, value := 4 * mantissa * up, high := (4 * mantissa + 2) * up,
    den := Nat.pow 2 (2 - exponent).toNat, closed := mantissa % 2 == 0 }

/-- The point `digits * 10 ^ exponent` lies in the interval. -/
def Interval.has (interval : Interval) (digits : Nat) (exponent : Int) : Bool :=
  let point := digits * Nat.pow 10 exponent.toNat * interval.den
  let scale := Nat.pow 10 (-exponent).toNat
  if interval.closed then interval.low * scale ≤ point && point ≤ interval.high * scale
  else interval.low * scale < point && point < interval.high * scale

/-- The nearest point inside the interval on the grid of multiples of `10 ^ exponent`. -/
def Interval.onGrid? (interval : Interval) (exponent : Int) : Option Nat :=
  let num := interval.value * Nat.pow 10 (-exponent).toNat
  let den := interval.den * Nat.pow 10 exponent.toNat
  let below := num / den
  match interval.has below exponent, interval.has (below + 1) exponent with
  | true, true => some (if 2 * (num % den) < den then below else below + 1)
  | true, false => some below
  | false, true => some (below + 1)
  | false, false => none

/-- The first hit on the grids from `tried` digits on, with `left` more grids to try. -/
def Interval.search (interval : Interval) (top : Int) (tried : Nat) : Nat → Digits
  | 0 => ⟨0, 0⟩
  | left + 1 =>
    match interval.onGrid? (top - tried) with
    | some digits => ⟨digits, top - tried⟩
    | none => interval.search top (tried + 1) left

/-- Moves the trailing zeros of the digits into the exponent; `limit` bounds how many. -/
def Digits.strip (d : Digits) : Nat → Digits
  | 0 => d
  | limit + 1 =>
    if d.digits % 10 = 0 ∧ d.digits ≠ 0 then
      Digits.strip ⟨d.digits / 10, d.exponent + 1⟩ limit
    else d

/-- The shortest decimal that reads back as `mantissa * 2 ^ exponent`, for a positive mantissa. -/
def shortest (mantissa : Nat) (exponent : Int) : Digits :=
  let interval := Interval.ofParts mantissa exponent
  (interval.search (decimalExponent interval.value interval.den) 1 17).strip 17

end Stencil.Decimal
