import Stencil.Grammar.Kit.Ahead
import Stencil.Proofs.Bare

/-! # How kit expressions are written

Expressions as trees, and the texts that write a tree. A text binds at a precedence: operators at
the one of their level, negations tighter than all operators, and everything else tightest of all.
Operators associate to the left, so what stands to their right binds tighter than they do. A group
in parentheses is as tight as a name, whatever is in it, so parentheses may be added anywhere.
Blanks may stand between any two tokens, but not between the name of a call and its parenthesis.
-/

namespace Stencil

/-- The level of an operator, the loosest first. -/
def InfixOp.precedence : InfixOp → Nat
  | or => 0
  | and => 1
  | equal | notEqual => 2
  | lessOrEqual | greaterOrEqual | less | greater => 3
  | add | subtract => 4
  | multiply | divide | modulo => 5

namespace Grammar.Kit

def opensWord (b : UInt8) : Bool := isLetter b || b == byte '_'

/-- A word: a letter or underscore, and then letters, digits, underscores and periods. -/
structure Word where
  bytes : List UInt8
  opens : bytes.head?.any opensWord = true
  inside : ∀ b ∈ bytes, isWordByte b = true

def Word.text (word : Word) : String := asciiText word.bytes

/-- A word that is a path and not a truth value. -/
structure Identifier extends Word where
  notTrue : toWord.text ≠ "true"
  notFalse : toWord.text ≠ "false"

/-- A word that is the name of a tag. -/
structure CallName extends Word where
  whole : byte '.' ∉ bytes

inductive Expr
  | int (i : Int64)
  | bool (b : Bool)
  | string (s : String)
  | path (name : Identifier)
  | call (name : CallName) (arguments : List Expr)
  | negation (operand : Expr)
  | infixOp (op : InfixOp) (left right : Expr)

namespace Expr

mutual

def node : Expr → Node
  | int i => .literal nowhere (.int i)
  | bool b => .literal nowhere (.bool b)
  | string s => .literal nowhere (.string s)
  | path name => .identifier nowhere (Path.parse name.text)
  | call name arguments => .tag nowhere name.text (nodes arguments) none
  | negation operand => .negation nowhere operand.node
  | infixOp op left right => .infixOp nowhere op left.node right.node

def nodes : List Expr → List Node
  | [] => []
  | e :: rest => e.node :: nodes rest

end

/-- The node is the expression, wherever it stands. -/
def Matches (e : Expr) (value : Node) : Prop := value.bare = e.node

theorem matches_infixOp {op : InfixOp} {left right : Expr} {a b : Node} {source : Source}
    (first : left.Matches a) (second : right.Matches b) :
    (infixOp op left right).Matches (.infixOp source op a b) := by
  rw [Matches, Node.bare, first, second, node]

theorem matches_negation {operand : Expr} {a : Node} {source : Source} (same : operand.Matches a) :
    (negation operand).Matches (.negation source a) := by
  rw [Matches, Node.bare, same, node]

end Expr

def Blank (bytes : List UInt8) : Prop := ∀ b ∈ bytes, Text.isAsciiBlank b = true

theorem blank_nil : Blank [] := by simp [Blank]

theorem blank_space : Blank [byte ' '] := by
  rintro _ (_ | ⟨_, ⟨⟩⟩)
  decide

/-- The byte has to be escaped inside a string literal. -/
def isSpecial (b : UInt8) : Bool := b == byte '\\' || b == byte '"' || b == byte '#'

/-- The bytes with a backslash before every backslash, quote and hash. -/
def quote (bytes : List UInt8) : List UInt8 :=
  bytes.flatMap fun b => if isSpecial b then [byte '\\', b] else [b]

def quoted (s : String) : List UInt8 := byte '"' :: quote (Utf8.encode s) ++ [byte '"']

mutual

/-- The bytes write the expression, and bind at the precedence. -/
inductive Written : Nat → Expr → List UInt8 → Prop
  | int (i : Int64) : Written 7 (.int i) (Utf8.encode (toString i.toInt))
  | bool (b : Bool) : Written 7 (.bool b) (Utf8.encode (toString b))
  | string (s : String) : Written 7 (.string s) (quoted s)
  | path (name : Identifier) : Written 7 (.path name) name.bytes
  | call (name : CallName) {arguments : List Expr} {text : List UInt8}
      (inside : WrittenArguments arguments text) :
      Written 7 (.call name arguments) (name.bytes ++ byte '(' :: text ++ [byte ')'])
  | group {e : Expr} {before text after : List UInt8} (blankBefore : Blank before)
      (inside : Written 0 e text) (blankAfter : Blank after) :
      Written 7 e (byte '(' :: before ++ text ++ after ++ [byte ')'])
  | negation {e : Expr} {gap text : List UInt8} (blank : Blank gap) (operand : Written 6 e text) :
      Written 6 (.negation e) (byte '!' :: gap ++ text)
  | infixOp {op : InfixOp} {left right : Expr} {first before after second : List UInt8}
      (leftOperand : Written op.precedence left first) (blankBefore : Blank before)
      (blankAfter : Blank after) (rightOperand : Written (op.precedence + 1) right second) :
      Written op.precedence (.infixOp op left right)
        (first ++ before ++ op.token ++ after ++ second)
  | looser {p : Nat} {e : Expr} {text : List UInt8} (tighter : Written (p + 1) e text) :
      Written p e text

/-- The bytes write the expressions as arguments, separated by commas. -/
inductive WrittenArguments : List Expr → List UInt8 → Prop
  | none {gap : List UInt8} (blank : Blank gap) : WrittenArguments [] gap
  | last {e : Expr} {before text after : List UInt8} (blankBefore : Blank before)
      (argument : Written 0 e text) (blankAfter : Blank after) :
      WrittenArguments [e] (before ++ text ++ after)
  | more {e e' : Expr} {rest : List Expr} {before text after others : List UInt8}
      (blankBefore : Blank before) (argument : Written 0 e text) (blankAfter : Blank after)
      (following : WrittenArguments (e' :: rest) others) :
      WrittenArguments (e :: e' :: rest) (before ++ text ++ after ++ byte ',' :: others)

end

/-- What binds at a precedence may stand where a looser one is asked for. -/
theorem Written.loosen {p q : Nat} {e : Expr} {text : List UInt8} (le : p ≤ q)
    (written : Written q e text) : Written p e text := by
  induction le with
  | refl => exact written
  | step _ ih => exact ih (.looser written)

/-- With parentheses whatever is written stands anywhere. -/
theorem Written.grouped {p : Nat} {e : Expr} {text : List UInt8} (written : Written p e text) :
    Written 7 e (byte '(' :: text ++ [byte ')']) := by
  simpa using Written.group blank_nil (written.loosen p.zero_le) blank_nil

mutual

/-- Every expression can be written, as tight as may be. -/
theorem Expr.exists_written : ∀ e : Expr, ∃ text, Written 7 e text
  | .int i => ⟨_, .int i⟩
  | .bool b => ⟨_, .bool b⟩
  | .string s => ⟨_, .string s⟩
  | .path name => ⟨_, .path name⟩
  | .call name arguments => by
    obtain ⟨text, inside⟩ := Expr.exists_writtenArguments arguments
    exact ⟨_, .call name inside⟩
  | .negation operand => by
    obtain ⟨text, written⟩ := operand.exists_written
    exact ⟨_, (Written.negation blank_nil (written.loosen (by decide))).grouped⟩
  | .infixOp op left right => by
    obtain ⟨first, leftOperand⟩ := left.exists_written
    obtain ⟨second, rightOperand⟩ := right.exists_written
    have bound : op.precedence + 1 ≤ 7 := by cases op <;> decide
    exact ⟨_, (Written.infixOp (leftOperand.loosen (by omega)) blank_nil blank_nil
      (rightOperand.loosen bound)).grouped⟩

/-- Every list of arguments can be written. -/
theorem Expr.exists_writtenArguments : ∀ es : List Expr, ∃ text, WrittenArguments es text
  | [] => ⟨_, .none blank_nil⟩
  | [e] => by
    obtain ⟨text, written⟩ := e.exists_written
    exact ⟨_, .last blank_nil (written.loosen (by decide)) blank_nil⟩
  | e :: e' :: rest => by
    obtain ⟨text, written⟩ := e.exists_written
    obtain ⟨others, following⟩ := Expr.exists_writtenArguments (e' :: rest)
    exact ⟨_, .more blank_nil (written.loosen (by decide)) blank_nil following⟩

end

end Grammar.Kit

end Stencil
