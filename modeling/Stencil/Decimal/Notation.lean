import Stencil.Decimal.Shortest

/-! # Written numbers

Two ways to write a double from its shortest digits. In a rendered text it is always positional,
with no point in a whole number. In a description a whole number ends in `.0`, and a number below
`10 ^ (-4)` or from `10 ^ 16` on is written with an exponent.
-/

namespace Stencil.Decimal

/-- The decimal in positional notation; `whole` is appended when it has no fraction. -/
def Digits.positional (d : Digits) (whole : List Char) : List Char :=
  let ds := Nat.toDigits 10 d.digits
  if d.exponent ≥ 0 then ds ++ List.replicate d.exponent.toNat '0' ++ whole
  else
    let places := (-d.exponent).toNat
    if places < ds.length then
      ds.take (ds.length - places) ++ '.' :: ds.drop (ds.length - places)
    else ['0', '.'] ++ List.replicate (places - ds.length) '0' ++ ds

def Digits.magnitude (d : Digits) : Int := d.exponent + (Nat.toDigits 10 d.digits).length - 1

/-- The decimal with one digit before the point and an exponent. -/
def Digits.scientific (d : Digits) : List Char :=
  let fraction := match Nat.toDigits 10 d.digits with
    | first :: [] => [first]
    | first :: rest => first :: '.' :: rest
    | [] => []
  fraction ++ 'e' :: (toString d.magnitude).toList

/-- A double with `finite` writing the digits of a positive magnitude. -/
def written (zero : List Char) (finite : Digits → List Char) (x : Float) : String :=
  let signed (negative : Bool) (body : List Char) :=
    String.ofList (if negative then '-' :: body else body)
  match Binary.ofFloat x with
  | .nan => "NaN"
  | .infinite negative => signed negative ['i', 'n', 'f']
  | .finite negative mantissa exponent =>
    signed negative (if mantissa = 0 then zero else finite (shortest mantissa exponent))

/-- A double as it is rendered. -/
def text (x : Float) : String := written ['0'] (·.positional []) x

/-- A double as it is described. -/
def described (x : Float) : String :=
  written ['0', '.', '0'] (fun d =>
    if d.magnitude < -4 || d.magnitude ≥ 16 then d.scientific else d.positional ['.', '0']) x

end Stencil.Decimal
