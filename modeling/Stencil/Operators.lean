import Stencil.Syntax

/-! # Operators

Binary operators on evaluated operands. Two operands that read as integers are computed with as
integers, otherwise as floats where both read as floats; what has no meaningful result, such as an
overflow or a division by zero, is null. Order is decided in the same two domains and, failing
them, between two texts.
-/

namespace Stencil.InfixOp

/-- The exact result of an arithmetic operator on integers: division truncates toward zero, and
there is none by zero. -/
def exactResult? (op : InfixOp) (a b : Int) : Option Int :=
  match op with
  | add => some (a + b)
  | subtract => some (a - b)
  | multiply => some (a * b)
  | divide => if b = 0 then none else some (a.tdiv b)
  | modulo => if b = 0 then none else some (a.tmod b)
  | _ => none

/-- The result of an arithmetic operator on 64-bit integers, none when it does not fit. The
remainder by minus one of the least integer is none as the quotient is. -/
def onInts? (op : InfixOp) (a b : Int64) : Option Int64 :=
  if op = modulo ∧ (Decimal.fit? (a.toInt.tdiv b.toInt)).isNone then none
  else (op.exactResult? a.toInt b.toInt).bind Decimal.fit?

/-- The result of an arithmetic operator on floats, none for a division by zero. -/
def onFloats? (op : InfixOp) (a b : Float) : Option Float :=
  match op with
  | add => some (a + b)
  | subtract => some (a - b)
  | multiply => some (a * b)
  | divide => if Decimal.sameNumber b (Decimal.ofInt 0) then none else some (a / b)
  | modulo => if Decimal.sameNumber b (Decimal.ofInt 0) then none else some (Decimal.remainder a b)
  | _ => none

def arithmetic (op : InfixOp) (left right : Value) : Value :=
  match left.asInt, right.asInt with
  | some a, some b => ((op.onInts? a b).map .int).getD .null
  | _, _ =>
    match left.asFloat, right.asFloat with
    | some a, some b => ((op.onFloats? a b).map .float).getD .null
    | _, _ => .null

/-- The order of two values, where they have one. -/
def order? (left right : Value) : Option Ordering :=
  match left.asInt, right.asInt with
  | some a, some b => some (compare a.toInt b.toInt)
  | _, _ =>
    match left.asFloat, right.asFloat with
    | some a, some b => Decimal.compare? a b
    | _, _ =>
      match left, right with
      | .string a, .string b => some (compare a b)
      | _, _ => none

/-- The truth of an order under an ordering operator. -/
def admits (op : InfixOp) (order : Ordering) : Bool :=
  match op with
  | less => order == .lt
  | greater => order == .gt
  | lessOrEqual => order != .gt
  | _ => order != .lt

/-- The value of an operator on two operands. -/
def apply (op : InfixOp) (left right : Value) : Value :=
  match op with
  | equal => .bool (left.same right)
  | notEqual => .bool (!left.same right)
  | and => .bool (left.truthy && right.truthy)
  | or => .bool (left.truthy || right.truthy)
  | less | greater | lessOrEqual | greaterOrEqual =>
    ((order? left right).map fun order => .bool (op.admits order)).getD .null
  | add | subtract | multiply | divide | modulo => op.arithmetic left right

end Stencil.InfixOp
