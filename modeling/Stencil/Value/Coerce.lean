import Stencil.Decimal.Notation
import Stencil.Text.Reading
import Stencil.Value.Basic

/-! # Loose typing

Templates are written against loosely typed data, so a value may be taken as text, integer, float
or truth value where it plausibly is one. Two values are equal when one of these projections
agrees, and otherwise when they have the same shape with equal parts.
-/

namespace Stencil.Value

/-- The value as text: scalars as they are written, and bytes that are UTF-8. -/
def asString : Value → Option String
  | bool b => some (if b then "true" else "false")
  | int i => some (toString i.toInt)
  | float x => some (Decimal.text x)
  | string s => some s
  | bytes data => Utf8.decode? data
  | _ => none

/-- The value as an integer: truth values, integers, and text that reads as one. Floats do not
count, so that mixed arithmetic falls back to floats. -/
def asInt : Value → Option Int64
  | bool b => some (if b then 1 else 0)
  | int i => some i
  | string s => Decimal.int64? (Text.trim s.toList)
  | _ => none

def asFloat : Value → Option Float
  | bool b => some (Decimal.ofInt (if b then 1 else 0))
  | int i => some (Decimal.ofInt i.toInt)
  | float x => some x
  | string s => Decimal.float? (Text.trim s.toList)
  | _ => none

/-- The value as a truth value: zero and one in every numeric shape, and the usual words. -/
def asBool : Value → Option Bool
  | bool b => some b
  | int i => if i = 0 then some false else if i = 1 then some true else none
  | float x =>
    if Decimal.sameNumber x (Decimal.ofInt 0) then some false
    else if Decimal.sameNumber x (Decimal.ofInt 1) then some true else none
  | string s =>
    if s = "true" ∨ s = "yes" ∨ s = "1" then some true
    else if s = "false" ∨ s = "no" ∨ s = "0" then some false else none
  | _ => none

/-- Everything is truthy but false, zero, null, what is empty of items or entries, and the texts
`0`, `false` and `no`. -/
def truthy : Value → Bool
  | null => false
  | bool b => b
  | int i => i != 0
  | float x => !Decimal.sameNumber x (Decimal.ofInt 0)
  | string s => !(s = "0" || s = "false" || s = "no")
  | array items => !items.isEmpty
  | map entries => !entries.isEmpty
  | bytes _ | pending .. | lazy .. => true

def agree (same : α → α → Bool) : Option α → Option α → Bool
  | some a, some b => same a b
  | _, _ => false

def projectsLike (v w : Value) : Bool :=
  agree (· == ·) v.asString w.asString || agree (· == ·) v.asInt w.asInt ||
    agree Decimal.sameNumber v.asFloat w.asFloat || agree (· == ·) v.asBool w.asBool

/-- Two values without parts are the same; deferred values are the same by their handle. -/
def sameScalar : Value → Value → Bool
  | null, null => true
  | bool a, bool b => a == b
  | int a, int b => a == b
  | float a, float b => Decimal.sameNumber a b
  | string a, string b => a == b
  | bytes a, bytes b => a == b
  | pending a _ _ _, pending b _ _ _ => a == b
  | lazy a _, lazy b _ => a == b
  | _, _ => false

mutual

/-- Equality of values as templates see it. -/
def same : Value → Value → Bool
  | array a, array b => sameItems a b
  | map a, map b => a.length == b.length && sameEntries a b
  | v, w => v.projectsLike w || v.sameScalar w

def sameItems : List Value → List Value → Bool
  | [], [] => true
  | v :: rest, w :: rest' => v.same w && sameItems rest rest'
  | _, _ => false

/-- Every entry of the first list has an equal one under its key in the second. -/
def sameEntries : List (String × Value) → List (String × Value) → Bool
  | [], _ => true
  | (key, v) :: rest, entries =>
    (match entries.lookup key with
      | some w => v.same w
      | none => false) && sameEntries rest entries

end

end Stencil.Value
