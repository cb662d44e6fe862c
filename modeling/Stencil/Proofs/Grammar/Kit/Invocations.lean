import Mathlib.Logic.Relation
import Stencil.Grammar.Kit
import Stencil.Proofs.Grammar.Kit.Scanning
import Stencil.Proofs.Grammar.Reads

/-! # Which rules call which

The rules of the kit grammar with their calls left open: a step reads one rule, and asks a reader
for whatever the rule calls. A rule calls another either where fewer bytes remain or, with no more
bytes, one that stands lower in the grammar. A step depends on nothing but its calls, so there is
one way to read all the rules, and it is what the grammar does.
-/

namespace Stencil

namespace Cursor

variable {buffer : Buffer} {a b c : Cursor buffer}

def Before (a b : Cursor buffer) : Prop := b.remaining < a.remaining

def UpTo (a b : Cursor buffer) : Prop := b.remaining < a.remaining + 1

theorem before_of_add_lt {bytes : List UInt8}
    (less : bytes.length + b.remaining < a.remaining) : Before a b :=
  Nat.lt_of_le_of_lt (Nat.le_add_left _ _) less

theorem UpTo.refl (a : Cursor buffer) : UpTo a a := Nat.lt_succ_self _

theorem Before.upTo (first : Before a b) : UpTo a b := Nat.lt_succ_of_lt first

theorem Before.trans_upTo (first : Before a b) (second : UpTo b c) : Before a c :=
  Nat.lt_of_le_of_lt (Nat.le_of_lt_succ second) first

theorem UpTo.trans_before (first : UpTo a b) (second : Before b c) : Before a c :=
  Nat.lt_of_lt_of_le second (Nat.le_of_lt_succ first)

theorem Before.trans (first : Before a b) (second : Before b c) : Before a c :=
  first.trans_upTo second.upTo

theorem UpTo.trans (first : UpTo a b) (second : UpTo b c) : UpTo a c :=
  Nat.lt_succ_of_le (Nat.le_trans (Nat.le_of_lt_succ second) (Nat.le_of_lt_succ first))

end Cursor

namespace Grammar.Kit

/-- The rules of the grammar. -/
inductive Rule
  | nodes | unit | tag | branches | loop | body | requiredBody | arguments | argumentList
  | oneArgument | expression | binary | chain | negated | atom | word | string
  deriving DecidableEq

/-- The order of the rules at one place, apart from the levels of operators. -/
@[simp] def Rule.rank : Rule → Nat
  | nodes => 12
  | unit | argumentList => 11
  | tag | expression => 10
  | binary => 3
  | negated => 2
  | atom | requiredBody | oneArgument => 1
  | branches | loop | body | arguments | chain | word | string => 0

/-- A rule with the cursor it starts at and all else that it is given. -/
inductive Invocation
  | nodes {buffer : Buffer} (opened : Option Position) (c : Cursor buffer)
  | unit {buffer : Buffer} (inBody : Bool) (c : Cursor buffer) (left : c.rest ≠ [])
  | tag {buffer : Buffer} (c : Cursor buffer) (left : c.rest ≠ [])
  | branches {buffer : Buffer} (c : Cursor buffer)
  | loop {buffer : Buffer} (start : Position) (c : Cursor buffer)
  | body {buffer : Buffer} (c : Cursor buffer)
  | requiredBody {buffer : Buffer} (construct : Construct) (start : Position) (c : Cursor buffer)
  | arguments {buffer : Buffer} (c : Cursor buffer)
  | argumentList {buffer : Buffer} (start : Position) (c : Cursor buffer)
  | oneArgument {buffer : Buffer} (construct : Construct) (start : Position) (c : Cursor buffer)
  | expression {buffer : Buffer} (c : Cursor buffer)
  | binary {buffer : Buffer} (loosest : List Level) (c : Cursor buffer)
  | chain {buffer : Buffer} (level : Level) (tighter : List Level) (start : Position) (left : Node)
      (c : Cursor buffer)
  | negated {buffer : Buffer} (c : Cursor buffer)
  | atom {buffer : Buffer} (c : Cursor buffer)
  | word {buffer : Buffer} (c : Cursor buffer) (left : c.rest ≠ [])
  | string {buffer : Buffer} (c : Cursor buffer) (left : c.rest ≠ [])

namespace Invocation

@[simp] def rule : Invocation → Rule
  | nodes .. => .nodes
  | unit .. => .unit
  | tag .. => .tag
  | branches .. => .branches
  | loop .. => .loop
  | body .. => .body
  | requiredBody .. => .requiredBody
  | arguments .. => .arguments
  | argumentList .. => .argumentList
  | oneArgument .. => .oneArgument
  | expression .. => .expression
  | binary .. => .binary
  | chain .. => .chain
  | negated .. => .negated
  | atom .. => .atom
  | word .. => .word
  | string .. => .string

@[simp] def remaining : Invocation → Nat
  | nodes _ c | unit _ c _ | tag c _ | branches c | loop _ c | body c | requiredBody _ _ c
  | arguments c | argumentList _ c | oneArgument _ _ c | expression c | binary _ c
  | chain _ _ _ _ c | negated c | atom c | word c _ | string c _ => c.remaining

/-- How many levels of operators an operand may still have. -/
@[simp] def levels : Invocation → Nat
  | binary loosest _ => loosest.length
  | _ => 0

/-- How high the rule stands above those it calls before it has read anything. -/
def height (call : Invocation) : Nat := call.rule.rank + call.levels

@[reducible] def Result : Invocation → Type
  | @nodes buffer _ c => Reading buffer (c.remaining + 1) (List Node)
  | @branches buffer c => Reading buffer (c.remaining + 1) (List (Node × List Node))
  | @chain buffer _ _ _ _ c => Reading buffer (c.remaining + 1) Node
  | @body buffer c | @requiredBody buffer _ _ c | @arguments buffer c | @argumentList buffer _ c =>
    Reading buffer c.remaining (List Node)
  | @unit buffer _ c _ | @tag buffer c _ | @loop buffer _ c | @oneArgument buffer _ _ c
  | @expression buffer c | @binary buffer _ c | @negated buffer c | @atom buffer c
  | @word buffer c _ | @string buffer c _ => Reading buffer c.remaining Node

end Invocation

/-- A way to read all the rules. -/
abbrev Reader := ∀ call : Invocation, Except Error call.Result

def read : Reader
  | .nodes opened c => nodes opened c
  | .unit inBody c left => unit inBody c left
  | .tag c left => tag c left
  | .branches c => branches c
  | .loop start c => loop start c
  | .body c => body c
  | .requiredBody construct start c => requiredBody construct start c
  | .arguments c => arguments c
  | .argumentList start c => argumentList start c
  | .oneArgument construct start c => oneArgument construct start c
  | .expression c => expression c
  | .binary loosest c => binary loosest c
  | .chain level tighter start left c => chain level tighter start left c
  | .negated c => negated c
  | .atom c => atom c
  | .word c left => word c left
  | .string c left => string c left

/-! ## The rules with open calls -/

open Cursor (Before UpTo)

theorem rest_ne_nil_of_negationAhead {buffer : Buffer} {c : Cursor buffer}
    (ahead : negationAhead c.rest) : c.rest ≠ [] := by
  intro empty
  simp [negationAhead, empty] at ahead

section Rules

variable {buffer : Buffer} (reader : Reader)

def nodesBy (opened : Option Position) (c : Cursor buffer) :
    Except Error (Reading buffer (c.remaining + 1) (List Node)) :=
  if left : c.rest = [] then
    match opened with
    | some start => fault c start .unclosedBody
    | none => .ok ⟨[], c, UpTo.refl c⟩
  else if opened.isSome && c.rest.head? == some (byte '\x7d') then
    let ⟨_, next, below⟩ := pop c left
    .ok ⟨[], next, Before.upTo below⟩
  else do
    let ⟨node, next, below⟩ ← reader (.unit opened.isSome c left)
    let ⟨others, last, within⟩ ← reader (.nodes opened next)
    return ⟨node :: others, last, UpTo.trans (Before.upTo below) within⟩

def unitBy (inBody : Bool) (c : Cursor buffer) (left : c.rest ≠ []) :
    Except Error (Reading buffer c.remaining Node) :=
  if escapeAhead c.rest then .ok (escaped c left)
  else if tagAhead c.rest then reader (.tag c left)
  else .ok (rawText inBody c left)

def tagBy (c : Cursor buffer) (left : c.rest ≠ []) :
    Except Error (Reading buffer c.remaining Node) := do
  let start := c.position
  let ⟨_, hash, progress⟩ := pop c left
  if hash.rest.head? = some (byte '(') then
    let ⟨value, next, below⟩ ← reader (.oneArgument .print start hash)
    return ⟨.tag (next.source start) "" [value] none, next, Before.trans progress below⟩
  else
    let ⟨bytes, named, after⟩ := run isNameByte hash
    let name := asciiText bytes
    if name = "if" then
      let ⟨condition, next, below⟩ ← reader (.oneArgument .condition start named)
      let ⟨block, next, inside⟩ ← reader (.requiredBody .condition start next)
      let ⟨others, next, beyond⟩ ← reader (.branches next)
      return ⟨.conditional (next.source start) condition block others, next,
        Before.trans_upTo (.trans (.trans (.trans_upTo progress after) below) inside) beyond⟩
    else if name = "for" then
      let ⟨node, next, below⟩ ← reader (.loop start named)
      return ⟨node, next, Before.trans (.trans_upTo progress after) below⟩
    else if name = "embed" then
      let ⟨path, next, below⟩ ← reader (.oneArgument .embed start named)
      return ⟨.embed (next.source start) path, next,
        Before.trans (.trans_upTo progress after) below⟩
    else
      let ⟨parameters, next, below⟩ ← reader (.arguments named)
      if bodyAhead next.rest then
        let ⟨block, next, inside⟩ ← reader (.body next)
        return ⟨.tag (next.source start) name parameters (some block), next,
          Before.trans (.trans (.trans_upTo progress after) below) inside⟩
      else
        return ⟨.tag (next.source start) name parameters none, next,
          Before.trans (.trans_upTo progress after) below⟩

def branchesBy (c : Cursor buffer) :
    Except Error (Reading buffer (c.remaining + 1) (List (Node × List Node))) :=
  match branchAhead? c.rest with
  | none => .ok ⟨[], c, UpTo.refl c⟩
  | some length => do
    let ⟨_, first, within⟩ := skip length c
    let start := first.position
    if ifWord.isPrefixOf first.rest then
      let ⟨_, word, after⟩ := skip ifWord.length first
      let ⟨_, blank, behind⟩ := blanks word
      let ⟨condition, next, progress⟩ ← reader (.oneArgument .elseCondition start blank)
      let ⟨block, next, below⟩ ← reader (.requiredBody .elseCondition start next)
      let ⟨others, next, beyond⟩ ← reader (.branches next)
      return ⟨(condition, block) :: others, next,
        UpTo.trans (Before.upTo (.trans (UpTo.trans_before (.trans (.trans within after) behind)
          progress) below)) beyond⟩
    else
      let ⟨block, next, below⟩ ← reader (.requiredBody .otherwise start first)
      return ⟨[(.literal (next.source start) (.bool true), block)], next,
        Before.upTo (UpTo.trans_before within below)⟩

def loopBy (start : Position) (c : Cursor buffer) :
    Except Error (Reading buffer c.remaining Node) := do
  let ⟨_, opened, progress⟩ ← expect (byte '(') .loopStart c
  let ⟨_, first, within⟩ := blanks opened
  let ⟨name, last, after⟩ := run isNameByte first
  if name.isEmpty then fault last first.position .loopVariable
  else
    let key := Node.literal (last.source first.position) (.string (asciiText name))
    let ⟨_, word, behind⟩ := blanks last
    if inWord.isPrefixOf word.rest && (word.rest[2]?).any Text.isAsciiBlank then
      let ⟨_, source, beyond⟩ := skip inWord.length word
      let ⟨data, next, below⟩ ← reader (.expression source)
      let ⟨_, last, blank⟩ := blanks next
      let ⟨_, next, closed⟩ ← expect (byte ')') .unclosedLoop last
      let ⟨block, next, inside⟩ ← reader (.requiredBody .loop start next)
      have header : Before c source := .trans_upTo
        (.trans_upTo (.trans_upTo (.trans_upTo progress within) after) behind) beyond
      return ⟨.loop (next.source start) key data block, next,
        Before.trans (.trans (.trans_upTo (.trans header below) blank) closed) inside⟩
    else fault word word.position .loopSource

def bodyBy (c : Cursor buffer) : Except Error (Reading buffer c.remaining (List Node)) := do
  let ⟨_, first, within⟩ := run Text.isLineBlank c
  let ⟨_, opened, progress⟩ ← expect (byte '\x7b') .bodyStart first
  let ⟨block, next, below⟩ ← reader (.nodes (some first.position) opened)
  return ⟨block, next, Before.trans_upTo (UpTo.trans_before within progress) below⟩

def requiredBodyBy (construct : Construct) (start : Position) (c : Cursor buffer) :
    Except Error (Reading buffer c.remaining (List Node)) :=
  if bodyAhead c.rest then reader (.body c) else fault c start (.noBody construct)

def argumentsBy (c : Cursor buffer) : Except Error (Reading buffer c.remaining (List Node)) := do
  let ⟨_, opened, progress⟩ ← expect (byte '(') .argumentsStart c
  let ⟨_, first, within⟩ := blanks opened
  if first.rest.head? = some (byte ')') then
    let ⟨_, next, below⟩ := skip 1 first
    return ⟨[], next, Before.trans_upTo (.trans_upTo progress within) below⟩
  else
    let ⟨values, next, below⟩ ← reader (.argumentList c.position first)
    return ⟨values, next, Before.trans (.trans_upTo progress within) below⟩

def argumentListBy (start : Position) (c : Cursor buffer) :
    Except Error (Reading buffer c.remaining (List Node)) := do
  let ⟨value, next, below⟩ ← reader (.expression c)
  let ⟨_, last, within⟩ := blanks next
  let ⟨_, after, behind⟩ := skip 1 last
  match last.rest.head? with
  | none => fault after start .unclosedArguments
  | some b =>
    if b = byte ',' then
      let ⟨values, next, beyond⟩ ← reader (.argumentList start after)
      return ⟨value :: values, next,
        Before.trans (.trans_upTo (.trans_upTo below within) behind) beyond⟩
    else if b = byte ')' then
      return ⟨[value], after, Before.trans_upTo (.trans_upTo below within) behind⟩
    else fault after last.position .argumentSeparator

def oneArgumentBy (construct : Construct) (start : Position) (c : Cursor buffer) :
    Except Error (Reading buffer c.remaining Node) := do
  let ⟨values, next, below⟩ ← reader (.arguments c)
  match values with
  | [value] => return ⟨value, next, below⟩
  | _ => fault next start (.notOneArgument construct)

def binaryBy (loosest : List Level) (c : Cursor buffer) :
    Except Error (Reading buffer c.remaining Node) :=
  match loosest with
  | [] => reader (.negated c)
  | level :: tighter => do
    let ⟨_, first, within⟩ := blanks c
    let ⟨left, next, below⟩ ← reader (.binary tighter first)
    let ⟨value, next, beyond⟩ ← reader (.chain level tighter first.position left next)
    return ⟨value, next, Before.trans_upTo (UpTo.trans_before within below) beyond⟩

def chainBy (level : Level) (tighter : List Level) (start : Position) (left : Node)
    (c : Cursor buffer) : Except Error (Reading buffer (c.remaining + 1) Node) :=
  let ⟨_, first, within⟩ := blanks c
  match operatorAhead? level first.rest with
  | none => .ok ⟨left, first, within⟩
  | some op => do
    let ⟨_, operand, after⟩ := skip op.token.length first
    let ⟨right, next, below⟩ ← reader (.binary tighter operand)
    let ⟨value, next, beyond⟩ ←
      reader (.chain level tighter start (.infixOp (next.source start) op left right) next)
    return ⟨value, next,
      UpTo.trans (UpTo.trans_before (.trans within after) below).upTo beyond⟩

def negatedBy (c : Cursor buffer) : Except Error (Reading buffer c.remaining Node) :=
  let ⟨_, first, within⟩ := blanks c
  if ahead : negationAhead first.rest then do
    let ⟨_, inner, progress⟩ := pop first (rest_ne_nil_of_negationAhead ahead)
    let ⟨operand, next, below⟩ ← reader (.negated inner)
    return ⟨.negation (next.source first.position) operand, next,
      Before.trans (UpTo.trans_before within progress) below⟩
  else do
    let ⟨node, next, below⟩ ← reader (.atom first)
    return ⟨node, next, UpTo.trans_before within below⟩

def atomBy (c : Cursor buffer) : Except Error (Reading buffer c.remaining Node) :=
  if left : c.rest = [] then fault c c.position .expressionAtEnd
  else if c.rest.head? = some (byte '(') then do
    let ⟨_, inner, progress⟩ := pop c left
    let ⟨value, next, below⟩ ← reader (.expression inner)
    let ⟨_, last, within⟩ := blanks next
    let ⟨_, next, closed⟩ ← expect (byte ')') .unclosedGroup last
    return ⟨value, next, Before.trans (.trans_upTo (.trans progress below) within) closed⟩
  else if c.rest.head? = some (byte '"') then reader (.string c left)
  else if numberAhead c.rest then number c left
  else if c.rest.head?.any fun b => isLetter b || b == byte '_' then
    reader (.word c left)
  else fault c c.position .noExpression

def wordBy (c : Cursor buffer) (left : c.rest ≠ []) :
    Except Error (Reading buffer c.remaining Node) := do
  let ⟨bytes, next, progress⟩ := wordBytes c left
  let word := asciiText bytes
  if next.rest.head? = some (byte '(') && !bytes.contains (byte '.') then
    let ⟨parameters, next, below⟩ ← reader (.arguments next)
    return ⟨.tag (next.source c.position) word parameters none, next,
      Before.trans progress below⟩
  else return ⟨wordNode (next.source c.position) word, next, progress⟩

def stringBy (c : Cursor buffer) (left : c.rest ≠ []) :
    Except Error (Reading buffer c.remaining Node) := do
  let ⟨text, template, next, below⟩ ← stringLiteral c left
  let source := next.source c.position
  let plain := Node.literal source (.string text)
  if template.contains (byte '#') then
    let ⟨parts, _, _⟩ ← reader (.nodes none (Cursor.start ⟨buffer.file, template⟩))
    let value := if parts.all Node.isRaw then plain else .interpolated source parts
    return ⟨value, next, Cursor.before_of_add_lt below⟩
  else return ⟨plain, next, Cursor.before_of_add_lt below⟩

end Rules

/-- Reads one rule, with whatever it calls read in a given way. -/
def Invocation.step (reader : Reader) : (call : Invocation) → Except Error call.Result
  | .nodes opened c => nodesBy reader opened c
  | .unit inBody c left => unitBy reader inBody c left
  | .tag c left => tagBy reader c left
  | .branches c => branchesBy reader c
  | .loop start c => loopBy reader start c
  | .body c => bodyBy reader c
  | .requiredBody construct start c => requiredBodyBy reader construct start c
  | .arguments c => argumentsBy reader c
  | .argumentList start c => argumentListBy reader start c
  | .oneArgument construct start c => oneArgumentBy reader construct start c
  | .expression c => reader (.binary Kit.levels c)
  | .binary loosest c => binaryBy reader loosest c
  | .chain level tighter start left c => chainBy reader level tighter start left c
  | .negated c => negatedBy reader c
  | .atom c => atomBy reader c
  | .word c left => wordBy reader c left
  | .string c left => stringBy reader c left

/-- The grammar reads every rule by the rules that it calls. -/
theorem read_eq_step (call : Invocation) : read call = Invocation.step read call := by
  cases call with
  | nodes opened c => rw [read, nodes.eq_def]; rfl
  | unit inBody c left => rw [read, unit]; rfl
  | tag c left => rw [read, tag]; rfl
  | branches c => rw [read, branches]; rfl
  | loop start c => rw [read, loop]; rfl
  | body c => rw [read, body]; rfl
  | requiredBody construct start c => rw [read, requiredBody]; rfl
  | arguments c => rw [read, arguments]; rfl
  | argumentList start c => rw [read, argumentList]; rfl
  | oneArgument construct start c => rw [read, oneArgument]; rfl
  | expression c => rw [read, expression]; rfl
  | binary loosest c => rw [read, binary.eq_def]; rfl
  | chain level tighter start left c => rw [read, chain]; rfl
  | negated c => rw [read, negated]; rfl
  | atom c => rw [read, atom]; rfl
  | word c left => rw [read, word]; rfl
  | string c left => rw [read, string]; rfl

/-! ## What a step calls -/

/-- The rules that a rule may call after it has read something. -/
@[simp] def Rule.later : Rule → List Rule
  | nodes | body | string => [.nodes]
  | tag => [.oneArgument, .requiredBody, .branches, .loop, .arguments, .body]
  | branches => [.oneArgument, .requiredBody, .branches]
  | loop => [.expression, .requiredBody]
  | arguments | argumentList => [.argumentList]
  | binary => [.chain]
  | chain => [.binary, .chain]
  | negated => [.negated]
  | atom => [.expression]
  | word => [.arguments]
  | unit | requiredBody | oneArgument | expression => []

/-- The first rule may call the second. -/
inductive Invokes : Invocation → Invocation → Prop
  | later {outer inner : Invocation} (follows : inner.rule ∈ outer.rule.later)
      (fewer : inner.remaining < outer.remaining) : Invokes outer inner
  | unit {buffer : Buffer} (opened : Option Position) {c : Cursor buffer} (left : c.rest ≠ []) :
      Invokes (.nodes opened c) (.unit opened.isSome c left)
  | tag {buffer : Buffer} (inBody : Bool) {c : Cursor buffer} (left : c.rest ≠ []) :
      Invokes (.unit inBody c left) (.tag c left)
  | body {buffer : Buffer} (construct : Construct) (start : Position) (c : Cursor buffer) :
      Invokes (.requiredBody construct start c) (.body c)
  | arguments {buffer : Buffer} (construct : Construct) (start : Position) (c : Cursor buffer) :
      Invokes (.oneArgument construct start c) (.arguments c)
  | argument {buffer : Buffer} (start : Position) (c : Cursor buffer) :
      Invokes (.argumentList start c) (.expression c)
  | operators {buffer : Buffer} (c : Cursor buffer) :
      Invokes (.expression c) (.binary Kit.levels c)
  | operand {buffer : Buffer} (level : Level) (tighter : List Level) {c next : Cursor buffer}
      (noMore : next.remaining ≤ c.remaining) :
      Invokes (.binary (level :: tighter) c) (.binary tighter next)
  | unary {buffer : Buffer} (c : Cursor buffer) : Invokes (.binary [] c) (.negated c)
  | atom {buffer : Buffer} {c next : Cursor buffer} (noMore : next.remaining ≤ c.remaining) :
      Invokes (.negated c) (.atom next)
  | word {buffer : Buffer} {c : Cursor buffer} (left : c.rest ≠ []) :
      Invokes (.atom c) (.word c left)
  | string {buffer : Buffer} {c : Cursor buffer} (left : c.rest ≠ []) :
      Invokes (.atom c) (.string c left)

namespace Invokes

variable {outer inner : Invocation}

/-- Fewer bytes remain, or no more and the rule stands lower. -/
theorem decreases (calls : Invokes outer inner) : inner.remaining < outer.remaining ∨
    inner.remaining ≤ outer.remaining ∧ inner.height < outer.height := by
  cases calls with
  | later follows fewer => exact .inl fewer
  | operand level tighter noMore | atom noMore => exact .inr ⟨noMore, by simp [Invocation.height]⟩
  | operators => exact .inr ⟨Nat.le_refl _, by simp [Invocation.height, Kit.levels]⟩
  | unit | tag | body | arguments | argument | unary | word | string =>
    exact .inr ⟨Nat.le_refl _, by simp [Invocation.height]⟩

/-- Whatever is called, at any depth, starts later or stands lower. -/
theorem trans_decreases (calls : Relation.TransGen Invokes outer inner) :
    inner.remaining < outer.remaining ∨
      inner.remaining ≤ outer.remaining ∧ inner.height < outer.height := by
  induction calls with
  | single calls => exact calls.decreases
  | tail _ calls ih =>
    have last := calls.decreases
    omega

/-- When a rule comes to call itself, fewer bytes remain, or no more and it is an operand of a
tighter level. -/
theorem reentered (calls : Relation.TransGen Invokes outer inner) (same : inner.rule = outer.rule) :
    inner.remaining < outer.remaining ∨
      inner.remaining ≤ outer.remaining ∧ inner.levels < outer.levels := by
  rcases trans_decreases calls with fewer | ⟨noMore, lower⟩
  · exact .inl fewer
  · rw [Invocation.height, Invocation.height, same] at lower
    exact .inr ⟨noMore, Nat.lt_of_add_lt_add_left lower⟩

end Invokes

section Congruence

/-- The readers agree on all that a rule calls. -/
def Agree (reader reader' : Reader) (outer : Invocation) : Prop :=
  ∀ inner, Invokes outer inner → reader inner = reader' inner

variable {reader reader' : Reader} {buffer : Buffer} {c : Cursor buffer} {left : c.rest ≠ []}
  {start : Position}

/-- The readers agree on a rule that is called after something has been read. -/
theorem Agree.later {outer : Invocation} (same : Agree reader reader' outer) (inner : Invocation)
    (fewer : inner.remaining < outer.remaining) (follows : inner.rule ∈ outer.rule.later) :
    reader inner = reader' inner := same inner (.later follows fewer)

/-- Reading nodes depends on no more than what the rule calls. -/
theorem nodesBy_congr {opened : Option Position} (same : Agree reader reader' (.nodes opened c)) :
    nodesBy reader opened c = nodesBy reader' opened c := by
  unfold nodesBy
  split
  · rfl
  split
  · rfl
  · rename_i left _
    rw [same _ (.unit opened left)]
    refine bind_congr ?_
    rintro ⟨node, next, below⟩
    dsimp only
    rw [same.later (.nodes opened next) below (by simp)]

/-- Reading a tag depends on no more than what the rule calls. -/
theorem tagBy_congr (same : Agree reader reader' (.tag c left)) :
    tagBy reader c left = tagBy reader' c left := by
  unfold tagBy
  rcases pop c left with ⟨_, hash, progress⟩
  dsimp only
  split
  case isTrue print =>
    rw [same.later (.oneArgument _ _ hash) progress (by simp)]
  rcases run isNameByte hash with ⟨bytes, named, after⟩
  have fewer : named.remaining < c.remaining := by omega
  dsimp only
  split
  case isTrue conditional =>
    rw [same.later (.oneArgument _ _ named) fewer (by simp)]
    refine bind_congr ?_
    rintro ⟨condition, next, below⟩
    have fewer := Nat.lt_trans below fewer
    dsimp only
    rw [same.later (.requiredBody _ _ next) fewer (by simp)]
    refine bind_congr ?_
    rintro ⟨block, last, within⟩
    dsimp only
    rw [same.later (.branches last) (Nat.lt_trans within fewer) (by simp)]
  split
  case isTrue loops =>
    rw [same.later (.loop _ named) fewer (by simp)]
  split
  case isTrue embeds =>
    rw [same.later (.oneArgument _ _ named) fewer (by simp)]
  case isFalse =>
    rw [same.later (.arguments named) fewer (by simp)]
    refine bind_congr ?_
    rintro ⟨parameters, next, below⟩
    dsimp only
    split
    · rw [same.later (.body next) (Nat.lt_trans below fewer) (by simp)]
    · rfl

/-- What leads to a further branch is read before the branch is. -/
theorem branchAhead?_pos {rest : List UInt8} {length : Nat}
    (ahead : branchAhead? rest = some length) : 0 < length ∧ rest ≠ [] := by
  unfold branchAhead? at ahead
  dsimp only at ahead
  split at ahead
  · rename_i word
    obtain ⟨more, whole⟩ := List.isPrefixOf_iff_prefix.mp word
    have blanks (bytes : List UInt8) : (afterLineBlanks bytes).length ≤ bytes.length :=
      (List.dropWhile_sublist _).length_le
    have first := blanks rest
    have second := blanks more
    rw [← whole, List.drop_left] at ahead
    rw [← whole, List.length_append, show elseWord.length = 4 from rfl] at first
    split at ahead
    · cases ahead
      exact ⟨by omega, List.ne_nil_of_length_pos (by omega)⟩
    · cases ahead
  · cases ahead

theorem branchesBy_congr (same : Agree reader reader' (.branches c)) :
    branchesBy reader c = branchesBy reader' c := by
  unfold branchesBy
  split
  · rfl
  rename_i length ahead
  obtain ⟨some, left⟩ := branchAhead?_pos ahead
  have fewer : (c.advance length).remaining < c.remaining := Cursor.remaining_advance_lt some left
  rcases parts : skip length c with ⟨_, first, within⟩
  obtain rfl : c.advance length = first := congrArg Reading.next parts
  dsimp only
  split
  · rcases skip ifWord.length (c.advance length) with ⟨_, word, after⟩
    rcases blanks word with ⟨_, blank, behind⟩
    have fewer : blank.remaining < c.remaining := by omega
    dsimp only
    rw [same.later (.oneArgument _ _ blank) fewer (by simp)]
    refine bind_congr ?_
    rintro ⟨condition, next, below⟩
    have fewer := Nat.lt_trans below fewer
    dsimp only
    rw [same.later (.requiredBody _ _ next) fewer (by simp)]
    refine bind_congr ?_
    rintro ⟨block, last, inside⟩
    dsimp only
    rw [same.later (.branches last) (Nat.lt_trans inside fewer) (by simp)]
  · rw [same.later (.requiredBody _ _ (c.advance length)) fewer (by simp)]

theorem loopBy_congr (same : Agree reader reader' (.loop start c)) :
    loopBy reader start c = loopBy reader' start c := by
  unfold loopBy
  refine bind_congr ?_
  rintro ⟨_, opened, progress⟩
  dsimp only
  rcases blanks opened with ⟨_, first, within⟩
  rcases run isNameByte first with ⟨name, last, after⟩
  rcases blanks last with ⟨_, word, behind⟩
  dsimp only
  split
  · rfl
  split
  · rcases skip inWord.length word with ⟨_, source, beyond⟩
    have fewer : source.remaining < c.remaining := by omega
    dsimp only
    rw [same.later (.expression source) fewer (by simp)]
    refine bind_congr ?_
    rintro ⟨data, next, below⟩
    rcases blanks next with ⟨_, last, blank⟩
    dsimp only
    refine bind_congr ?_
    rintro ⟨_, next, closed⟩
    dsimp only
    rw [same.later (.requiredBody _ _ next) (by simp; omega) (by simp)]
  · rfl

theorem bodyBy_congr (same : Agree reader reader' (.body c)) :
    bodyBy reader c = bodyBy reader' c := by
  unfold bodyBy
  rcases run Text.isLineBlank c with ⟨_, first, within⟩
  dsimp only
  refine bind_congr ?_
  rintro ⟨_, opened, progress⟩
  dsimp only
  rw [same.later (.nodes _ opened) (by simp; omega) (by simp)]

theorem argumentsBy_congr (same : Agree reader reader' (.arguments c)) :
    argumentsBy reader c = argumentsBy reader' c := by
  unfold argumentsBy
  refine bind_congr ?_
  rintro ⟨_, opened, progress⟩
  dsimp only
  rcases blanks opened with ⟨_, first, within⟩
  dsimp only
  split
  · rfl
  · rw [same.later (.argumentList _ first) (by simp; omega) (by simp)]

theorem argumentListBy_congr (same : Agree reader reader' (.argumentList start c)) :
    argumentListBy reader start c = argumentListBy reader' start c := by
  unfold argumentListBy
  rw [same _ (.argument start c)]
  refine bind_congr ?_
  rintro ⟨value, next, below⟩
  dsimp only
  rcases blanks next with ⟨_, last, within⟩
  rcases skip 1 last with ⟨_, after, behind⟩
  dsimp only
  split
  · rfl
  split
  · rw [same.later (.argumentList _ after) (by simp; omega) (by simp)]
  · rfl

theorem binaryBy_congr {loosest : List Level} (same : Agree reader reader' (.binary loosest c)) :
    binaryBy reader loosest c = binaryBy reader' loosest c := by
  unfold binaryBy
  cases loosest with
  | nil => exact same _ (.unary c)
  | cons level tighter =>
    rcases blanks c with ⟨_, first, within⟩
    dsimp only
    rw [same _ (.operand level tighter (Nat.le_of_lt_succ within))]
    refine bind_congr ?_
    rintro ⟨value, next, below⟩
    dsimp only
    rw [same.later (.chain level tighter _ value next) (by simp; omega) (by simp)]

/-- An operator takes at least one byte. -/
theorem remaining_operator_lt {level : Level} {op : InfixOp}
    (ahead : operatorAhead? level c.rest = some op) :
    (c.advance op.token.length).remaining < c.remaining := by
  have there := List.find?_some ahead
  obtain ⟨more, whole⟩ := List.isPrefixOf_iff_prefix.mp there
  have some := List.length_pos_iff.mpr op.token_ne_nil
  exact Cursor.remaining_advance_lt some (by rw [← whole]; simp [op.token_ne_nil])

theorem chainBy_congr {level : Level} {tighter : List Level} {value : Node}
    (same : Agree reader reader' (.chain level tighter start value c)) :
    chainBy reader level tighter start value c = chainBy reader' level tighter start value c := by
  unfold chainBy
  rcases blanks c with ⟨_, first, within⟩
  dsimp only
  split
  · rfl
  rename_i op ahead
  have fewer := remaining_operator_lt ahead
  rcases parts : skip op.token.length first with ⟨_, operand, after⟩
  obtain rfl : first.advance op.token.length = operand := congrArg Reading.next parts
  dsimp only
  rw [same.later (.binary tighter _) (by simp at fewer ⊢; omega) (by simp)]
  refine bind_congr ?_
  rintro ⟨right, next, below⟩
  dsimp only
  rw [same.later (.chain level tighter start _ next) (by simp; omega) (by simp)]

theorem negatedBy_congr (same : Agree reader reader' (.negated c)) :
    negatedBy reader c = negatedBy reader' c := by
  unfold negatedBy
  rcases blanks c with ⟨_, first, within⟩
  dsimp only
  split
  · rcases pop first _ with ⟨_, inner, progress⟩
    dsimp only
    rw [same.later (.negated inner) (by simp; omega) (by simp)]
  · rw [same _ (.atom (Nat.le_of_lt_succ within))]

theorem atomBy_congr (same : Agree reader reader' (.atom c)) :
    atomBy reader c = atomBy reader' c := by
  unfold atomBy
  split
  · rfl
  rename_i left
  split
  · rcases pop c left with ⟨_, inner, progress⟩
    dsimp only
    rw [same.later (.expression inner) progress (by simp)]
  · rw [same _ (.string left), same _ (.word left)]

theorem wordBy_congr (same : Agree reader reader' (.word c left)) :
    wordBy reader c left = wordBy reader' c left := by
  unfold wordBy
  rcases wordBytes c left with ⟨bytes, next, progress⟩
  dsimp only
  rw [same.later (.arguments next) progress (by simp)]

theorem stringBy_congr (same : Agree reader reader' (.string c left)) :
    stringBy reader c left = stringBy reader' c left := by
  unfold stringBy
  refine bind_congr ?_
  rintro ⟨text, template, next, below⟩
  dsimp only
  rw [same.later (.nodes none (Cursor.start ⟨buffer.file, template⟩)) (by simp; omega) (by simp)]

/-- A step depends on nothing but its calls. -/
theorem step_congr {call : Invocation} (same : Agree reader reader' call) :
    call.step reader = call.step reader' := by
  cases call with
  | nodes opened c => exact nodesBy_congr same
  | unit inBody c left =>
    change unitBy reader inBody c left = unitBy reader' inBody c left
    unfold unitBy
    rw [same _ (.tag inBody left)]
  | tag c left => exact tagBy_congr same
  | branches c => exact branchesBy_congr same
  | loop start c => exact loopBy_congr same
  | body c => exact bodyBy_congr same
  | requiredBody construct start c =>
    change requiredBodyBy reader construct start c = requiredBodyBy reader' construct start c
    unfold requiredBodyBy
    rw [same _ (.body construct start c)]
  | arguments c => exact argumentsBy_congr same
  | argumentList start c => exact argumentListBy_congr same
  | oneArgument construct start c =>
    change oneArgumentBy reader construct start c = oneArgumentBy reader' construct start c
    unfold oneArgumentBy
    rw [same _ (.arguments construct start c)]
  | expression c => exact same _ (.operators c)
  | binary loosest c => exact binaryBy_congr same
  | chain level tighter start left c => exact chainBy_congr same
  | negated c => exact negatedBy_congr same
  | atom c => exact atomBy_congr same
  | word c left => exact wordBy_congr same
  | string c left => exact stringBy_congr same

end Congruence

/-! ## The solution -/

/-- What is so of a rule when it is so of all that it calls is so of every rule. -/
theorem Invocation.induction {P : Invocation → Prop}
    (step : ∀ outer, (∀ inner, Invokes outer inner → P inner) → P outer) (call : Invocation) :
    P call :=
  step call fun inner _ => Invocation.induction step inner
termination_by (call.remaining, call.height)
decreasing_by
  rename_i calls
  rcases calls.decreases with fewer | ⟨noMore, lower⟩
  · exact .left _ _ fewer
  · rcases Nat.lt_or_eq_of_le noMore with fewer | same
    · exact .left _ _ fewer
    · rw [same]
      exact .right _ lower

/-- There is one reader that reads every rule by those it calls. -/
theorem eq_read_of_step {reader : Reader} (solves : ∀ call, reader call = call.step reader) :
    reader = read := by
  funext call
  induction call using Invocation.induction with
  | step call ih => rw [solves, read_eq_step, step_congr ih]

/-- The kit parser reads any bytes to an end. Between two rules fewer bytes remain, or no more and
the second stands lower in the grammar; a rule that comes to call itself has fewer bytes before it,
or it is an operand of a tighter level. So no calls go on forever. A rule depends on nothing but
the rules it calls, so the grammar has one solution and no other, and a template is parsed by it.
The loops over the bytes of a token read at least one byte each time, a string literal is longer
than the template that is read again for it, and what is cut out of the text lies in it. -/
theorem parsing_ends :
    (∀ outer inner, Invokes outer inner → inner.remaining < outer.remaining ∨
        inner.remaining ≤ outer.remaining ∧ inner.height < outer.height) ∧
      (∀ outer inner, Relation.TransGen Invokes outer inner → inner.rule = outer.rule →
        inner.remaining < outer.remaining ∨
          inner.remaining ≤ outer.remaining ∧ inner.levels < outer.levels) ∧
      (∀ (reader reader' : Reader) (outer : Invocation),
        (∀ inner, Invokes outer inner → reader inner = reader' inner) →
          outer.step reader = outer.step reader') ∧
      (∀ reader : Reader, (∀ call, reader call = call.step reader) ↔ reader = read) ∧
      (WellFounded fun inner outer => Invokes outer inner) ∧
      (∀ buffer, parse buffer = (read (.nodes none (Cursor.start buffer))).map Reading.value) ∧
      ∀ (buffer : Buffer) (c : Cursor buffer), Scans c := by
  refine ⟨fun _ _ => Invokes.decreases, fun _ _ => Invokes.reentered, fun _ _ _ => step_congr,
    fun reader => ⟨eq_read_of_step, ?_⟩, ⟨Invocation.induction fun outer inside => ?_⟩,
    fun buffer => ?_, fun _ => scans⟩
  · rintro rfl
    exact read_eq_step
  · exact .intro outer inside
  · rw [parse, read]
    cases nodes none (Cursor.start buffer) <;> rfl

end Grammar.Kit

end Stencil
