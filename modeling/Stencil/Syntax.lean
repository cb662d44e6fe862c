import Stencil.Value.Display

/-! # Syntax trees

What a grammar makes of a template. Every node carries the stretch of the template it was read
from. The description of a tree puts every infix expression in parentheses, and an `else` is
described as the `else if(true)` that it is.
-/

namespace Stencil

/-- The binary operators of expressions. -/
inductive InfixOp
  | add | subtract | multiply | divide | modulo
  | less | greater | lessOrEqual | greaterOrEqual | equal | notEqual
  | and | or
  deriving DecidableEq, Repr

namespace InfixOp

def chars : InfixOp → List Char
  | add => ['+']
  | subtract => ['-']
  | multiply => ['*']
  | divide => ['/']
  | modulo => ['%']
  | less => ['<']
  | greater => ['>']
  | lessOrEqual => ['<', '=']
  | greaterOrEqual => ['>', '=']
  | equal => ['=', '=']
  | notEqual => ['!', '=']
  | and => ['&', '&']
  | or => ['|', '|']

def symbol (op : InfixOp) : String := String.ofList op.chars

def token (op : InfixOp) : List UInt8 := op.chars.map Char.toUInt8

theorem token_ne_nil (op : InfixOp) : op.token ≠ [] := by cases op <;> simp [token, chars]

def all : List InfixOp :=
  [add, subtract, multiply, divide, modulo, less, greater, lessOrEqual, greaterOrEqual, equal,
   notEqual, and, or]

end InfixOp

/-- A constant of an expression. -/
inductive Literal
  | bool (b : Bool)
  | int (i : Int64)
  | float (x : Float)
  | string (s : String)

namespace Literal

def value : Literal → Value
  | bool b => .bool b
  | int i => .int i
  | float x => .float x
  | string s => .string s

def describe : Literal → String
  | bool b => toString b
  | int i => toString i.toInt
  | float x => Decimal.described x
  | string s => Text.quoted s

/-- Two constants have one shape and one value; floats are compared as numbers. -/
def same : Literal → Literal → Bool
  | bool a, bool b => a == b
  | int a, int b => a == b
  | float a, float b => Decimal.sameNumber a b
  | string a, string b => a == b
  | _, _ => false

end Literal

/-- What a host node computes: a value or an error from the current data, and the data after. It is
given the data of its context alone; the notes of the render, which go with them, are out of its
reach. -/
abbrev HostAction := Value → Except Error Value × Value

/-- A node of a parsed template. A conditional is tried branch by branch, the first condition and
body first. Host nodes are known by a number. -/
inductive Node
  | raw (source : Source) (data : List UInt8)
  | literal (source : Source) (constant : Literal)
  | interpolated (source : Source) (nodes : List Node)
  | identifier (source : Source) (path : Path)
  | infixOp (source : Source) (op : InfixOp) (left right : Node)
  | negation (source : Source) (operand : Node)
  | tag (source : Source) (name : String) (parameters : List Node) (body : Option (List Node))
  | conditional (source : Source) (condition : Node) (body : List Node)
      (others : List (Node × List Node))
  | loop (source : Source) (key data : Node) (body : List Node)
  | embed (source : Source) (path : Node)
  | host (source : Source) (number : Nat) (action : HostAction)

namespace Node

instance : Inhabited Node := ⟨raw (.detached "") []⟩

/-- The stretch of the template the node was read from. -/
def source : Node → Source
  | raw s _ | literal s _ | interpolated s _ | identifier s _ | infixOp s .. | negation s _
  | tag s .. | conditional s .. | loop s .. | embed s _ | host s .. => s

def isRaw : Node → Bool
  | raw .. => true
  | _ => false

def braced (nodes : List String) : String := " \x7b " ++ " ".intercalate nodes ++ " \x7d"

mutual

def describe : Node → String
  | raw _ data => "raw(" ++ Text.quoted (Utf8.decodeLossy data) ++ ")"
  | literal _ constant => constant.describe
  | interpolated _ nodes => "\"" ++ String.join (describeAll nodes) ++ "\""
  | identifier _ path => path.describe
  | infixOp _ op left right =>
    "(" ++ left.describe ++ " " ++ op.symbol ++ " " ++ right.describe ++ ")"
  | negation _ operand => "!" ++ operand.describe
  | tag _ name parameters body =>
    "#" ++ name ++ Text.bracketed "(" ")" (describeAll parameters) ++
      (match body with
        | some nodes => braced (describeAll nodes)
        | none => "")
  | conditional _ condition body others =>
    "#if(" ++ condition.describe ++ ")" ++ braced (describeAll body) ++ describeBranches others
  | loop _ key data body =>
    "#for(" ++ key.describe ++ " in " ++ data.describe ++ ")" ++ braced (describeAll body)
  | embed _ path => "#embed(" ++ path.describe ++ ")"
  | host .. => "<custom>"

def describeAll : List Node → List String
  | [] => []
  | node :: rest => node.describe :: describeAll rest

def describeBranches : List (Node × List Node) → String
  | [] => ""
  | (condition, body) :: rest =>
    " else if(" ++ condition.describe ++ ")" ++ braced (describeAll body) ++ describeBranches rest

end

/-- How a host node at a source is shown; what it does is not. -/
def debugHost (source : Source) : String :=
  "Syntax \x7b kind: Custom(Custom(..)), source: " ++ source.debug ++ " \x7d"

mutual

/-- Two nodes are the same tree at the same places. -/
def same : Node → Node → Bool
  | raw s data, raw s' data' => data == data' && s == s'
  | literal s constant, literal s' constant' => constant.same constant' && s == s'
  | interpolated s nodes, interpolated s' nodes' => sameAll nodes nodes' && s == s'
  | identifier s path, identifier s' path' => path == path' && s == s'
  | infixOp s op left right, infixOp s' op' left' right' =>
    op == op' && left.same left' && right.same right' && s == s'
  | negation s operand, negation s' operand' => operand.same operand' && s == s'
  | tag s name parameters none, tag s' name' parameters' none =>
    name == name' && sameAll parameters parameters' && s == s'
  | tag s name parameters (some body), tag s' name' parameters' (some body') =>
    name == name' && sameAll parameters parameters' && sameAll body body' && s == s'
  | conditional s condition body others, conditional s' condition' body' others' =>
    condition.same condition' && sameAll body body' && sameBranches others others' && s == s'
  | loop s key data body, loop s' key' data' body' =>
    key.same key' && data.same data' && sameAll body body' && s == s'
  | embed s path, embed s' path' => path.same path' && s == s'
  | host s number _, host s' number' _ => number == number' && s == s'
  | _, _ => false

/-- Two lists of nodes are the same, place by place. -/
def sameAll : List Node → List Node → Bool
  | [], [] => true
  | node :: rest, node' :: rest' => node.same node' && sameAll rest rest'
  | _, _ => false

/-- Two lists of branches are the same, place by place. -/
def sameBranches : List (Node × List Node) → List (Node × List Node) → Bool
  | [], [] => true
  | (condition, body) :: rest, (condition', body') :: rest' =>
    condition.same condition' && sameAll body body' && sameBranches rest rest'
  | _, _ => false

end

end Node

end Stencil
