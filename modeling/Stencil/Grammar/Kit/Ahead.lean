import Stencil.Grammar.Reading

/-! # Looking ahead in a kit template

The decisions of the kit grammar that are made before a byte is read, as conditions on the bytes
that remain: where a tag begins, where raw text ends, whether a body or a further branch follows,
and which operator stands next.
-/

namespace Stencil.Grammar.Kit

def isNameByte (b : UInt8) : Bool := isLetter b || isDigit b || b == byte '_'

def isWordByte (b : UInt8) : Bool := isNameByte b || b == byte '.'

/-- The bytes begin with `#(`, or with `#` and a name and a parenthesis. -/
def tagAhead : List UInt8 → Bool
  | hash :: b :: rest =>
    hash == byte '#' && (b == byte '(' ||
      (isLetter b && (rest.dropWhile isNameByte).head? == some (byte '(')))
  | _ => false

def escapeAhead : List UInt8 → Bool
  | b :: b' :: _ => b == byte '\\' && b' == byte '#'
  | _ => false

/-- Raw text ends before these bytes. -/
def rawEnds (inBody : Bool) (rest : List UInt8) : Bool :=
  (inBody && rest.head? == some (byte '\x7d')) || escapeAhead rest || tagAhead rest

/-- How many bytes come before the end of raw text. -/
def rawLength (inBody : Bool) : List UInt8 → Nat
  | [] => 0
  | b :: rest => if rawEnds inBody (b :: rest) then 0 else rawLength inBody rest + 1

def afterLineBlanks (rest : List UInt8) : List UInt8 := rest.dropWhile Text.isLineBlank

def bodyAhead (rest : List UInt8) : Bool := (afterLineBlanks rest).head? == some (byte '\x7b')

def elseWord : List UInt8 := [byte 'e', byte 'l', byte 's', byte 'e']

def ifWord : List UInt8 := [byte 'i', byte 'f']

def inWord : List UInt8 := [byte 'i', byte 'n']

def opensCondition (b : UInt8) : Bool := b == byte '(' || Text.isLineBlank b

/-- The bytes begin with a condition or a body, as they must after `else`. -/
def branchOpens (rest : List UInt8) : Bool :=
  (ifWord.isPrefixOf rest && (rest[2]?).any opensCondition) || rest.head? == some (byte '\x7b')

/-- How many bytes lead to the condition or body of a further branch: spaces and tabs, `else`, and
spaces and tabs, when something that opens a branch comes next. Anything else leaves the word as
plain text. -/
def branchAhead? (rest : List UInt8) : Option Nat :=
  let first := afterLineBlanks rest
  if elseWord.isPrefixOf first then
    let second := afterLineBlanks (first.drop elseWord.length)
    if branchOpens second then some (rest.length - second.length) else none
  else none

/-- The operators of one level of precedence; a longer one stands before its beginnings. -/
abbrev Level := List InfixOp

def levels : List Level :=
  [[.or], [.and], [.equal, .notEqual], [.lessOrEqual, .greaterOrEqual, .less, .greater],
   [.add, .subtract], [.multiply, .divide, .modulo]]

/-- The operator of a level that the bytes begin with. -/
def operatorAhead? (level : Level) (rest : List UInt8) : Option InfixOp :=
  level.find? fun op => op.token.isPrefixOf rest

/-- The bytes begin with a negation, and not with an inequality. -/
def negationAhead (rest : List UInt8) : Bool :=
  rest.head? == some (byte '!') && rest[1]? != some (byte '=')

/-- How many bytes a number takes: an optional minus, digits, and a fraction when a digit follows
the point; with whether it has a fraction. -/
def numberLength (rest : List UInt8) : Nat × Bool :=
  let sign := if rest.head? == some (byte '-') then 1 else 0
  let whole := sign + ((rest.drop sign).takeWhile isDigit).length
  match rest.drop whole with
  | point :: digit :: more =>
    if point == byte '.' && isDigit digit then
      (whole + 2 + (more.takeWhile isDigit).length, true)
    else (whole, false)
  | _ => (whole, false)

def numberAhead : List UInt8 → Bool
  | b :: rest => isDigit b || (b == byte '-' && rest.head?.any isDigit)
  | [] => false

end Stencil.Grammar.Kit
