/-! # Binary floating point, exactly

A double is read as sign, mantissa and exponent of its 64 bits, and everything that must be exact
(order, remainder, rounding of a quotient) is then integer arithmetic. `Format.nearest` rounds a
positive quotient to the nearest number of a format, ties to the even mantissa.
-/

namespace Stencil.Decimal

/-- What the bits of a double stand for: `mantissa * 2 ^ exponent` when finite. -/
inductive Binary
  | nan
  | infinite (negative : Bool)
  | finite (negative : Bool) (mantissa : Nat) (exponent : Int)
  deriving DecidableEq, Repr

namespace Binary

def ofFloat (x : Float) : Binary :=
  let bits : Nat := x.toBits.toNat
  let negative := bits / Nat.pow 2 63 == 1
  let biased : Nat := bits / Nat.pow 2 52 % Nat.pow 2 11
  let fraction : Nat := bits % Nat.pow 2 52
  if biased = 2047 then (if fraction = 0 then infinite negative else nan)
  else if biased = 0 then finite negative fraction (-1074)
  else finite negative (fraction + Nat.pow 2 52) ((biased : Int) - 1075)

/-- The place of a number in the order of the reals, in units of the least positive double; an
infinity lies beyond every finite number, and what is not a number has no place. -/
def place? : Binary → Option Int
  | nan => none
  | infinite negative => some (if negative then -(Nat.pow 2 2200) else Nat.pow 2 2200)
  | finite negative mantissa exponent =>
    let size : Nat := mantissa * Nat.pow 2 (exponent + 1074).toNat
    some (if negative then -size else size)

end Binary

/-- The order of two doubles, none when one of them is not a number. -/
def compare? (x y : Float) : Option Ordering := do
  let a ← (Binary.ofFloat x).place?
  let b ← (Binary.ofFloat y).place?
  return compare a b

/-- Two doubles are the same number; what is not a number is not even itself. -/
def sameNumber (x y : Float) : Bool := compare? x y == some .eq

/-- The quotient rounded to the nearest natural number, a half to the even neighbour. -/
def roundHalfEven (num den : Nat) : Nat :=
  let q := num / den
  let twice := 2 * (num % den)
  if twice < den then q else if twice > den then q + 1 else q + q % 2

/-- A binary format: bits of the mantissa, and the exponents of the last mantissa bit of its
smallest and largest numbers. -/
structure Format where
  precision : Nat
  leastExponent : Int
  greatestExponent : Int

def double : Format := ⟨53, -1074, 971⟩

def single : Format := ⟨24, -149, 104⟩

/-- `num / den * 2 ^ (-exponent)` rounded to the nearest natural number. -/
def scaledRound (num den : Nat) (exponent : Int) : Nat :=
  roundHalfEven (num * Nat.pow 2 (-exponent).toNat) (den * Nat.pow 2 exponent.toNat)

/-- The exponent `k` with `2 ^ k ≤ num / den < 2 ^ (k + 1)`, for positive arguments. -/
def floorLog2 (num den : Nat) : Int :=
  let guess : Int := (num.log2 : Int) - den.log2
  if num * Nat.pow 2 (-guess).toNat ≥ den * Nat.pow 2 guess.toNat then guess else guess - 1

/-- The mantissa and exponent of the number of the format nearest to the positive quotient, none
when that is beyond the largest. -/
def Format.nearest (format : Format) (num den : Nat) : Option (Nat × Int) :=
  let exponent := max format.leastExponent (floorLog2 num den - format.precision + 1)
  let mantissa := scaledRound num den exponent
  if mantissa = Nat.pow 2 format.precision then
    if exponent < format.greatestExponent then some (Nat.pow 2 (format.precision - 1), exponent + 1)
    else none
  else if exponent ≤ format.greatestExponent then some (mantissa, exponent) else none

/-- The double with the given sign and magnitude bits. -/
def ofMagnitude (negative : Bool) (magnitude : Nat) : Float :=
  Float.ofBits (UInt64.ofNat (magnitude + if negative then Nat.pow 2 63 else 0))

/-- The double `mantissa * 2 ^ exponent`, for a mantissa of at most 53 bits and an exponent that
double precision has. -/
def ofParts (negative : Bool) (mantissa : Nat) (exponent : Int) : Float :=
  let spare := 52 - mantissa.log2
  let exponent' := max (-1074) (exponent - spare)
  let mantissa' := mantissa * Nat.pow 2 (exponent - exponent').toNat
  if mantissa' < Nat.pow 2 52 then ofMagnitude negative mantissa'
  else ofMagnitude negative ((exponent' + 1075).toNat * Nat.pow 2 52 + (mantissa' - Nat.pow 2 52))

def infinity (negative : Bool) : Float := ofMagnitude negative (2047 * Nat.pow 2 52)

def notANumber : Float := Float.ofBits 0x7FF8000000000000

/-- The quotient rounded to the format, as a double: zero stays zero, and what is beyond the
largest number becomes infinite. -/
def Format.round (format : Format) (negative : Bool) (num den : Nat) : Float :=
  if num = 0 then ofMagnitude negative 0
  else match format.nearest num den with
    | some (mantissa, exponent) => ofParts negative mantissa exponent
    | none => infinity negative

def ofInt (i : Int) : Float := double.round (decide (i < 0)) i.natAbs 1

/-- The remainder of a division that truncates toward zero, with the sign of the dividend. It is
exact; there is none by zero or of an infinite dividend. -/
def remainder (x y : Float) : Float :=
  match Binary.ofFloat x, Binary.ofFloat y with
  | .finite negative m e, .finite _ m' e' =>
    if m' = 0 then notANumber
    else
      let least := min e e'
      let size := (m * Nat.pow 2 (e - least).toNat) % (m' * Nat.pow 2 (e' - least).toNat)
      if size = 0 then ofMagnitude negative 0 else ofParts negative size least
  | .finite .., .infinite _ => x
  | _, _ => notANumber

end Stencil.Decimal
