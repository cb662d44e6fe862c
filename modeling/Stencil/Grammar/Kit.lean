import Stencil.Grammar.Kit.Ahead
import Stencil.Grammar.Kit.Quoting

/-! # The kit grammar

```text
Hello, #(name)!                       print an expression
#lowercase(title)                     call a tag
#set("greeting") { Hi #(name) }       call a tag with a body
#if(count > 1) {…} else if(x) {…} else {…}
#for(item in items) { #(index): #(item) }
#embed("partials/footer")
\#                                    a literal `#`
```

The rules read from the left and never go back; every rule but those for lists of nodes and of
branches reads at least one byte. Their measure is the number of bytes that remain, and between
rules at one place the order from statements down to atoms.
-/

namespace Stencil.Grammar.Kit

/-- Reads one given byte. The fault covers the byte that stands there instead. -/
def expect {buffer : Buffer} (b : UInt8) (why : ParseFault) (c : Cursor buffer) :
    Except Error (Reading buffer c.remaining Unit) :=
  if there : c.rest.head? = some b then
    .ok ⟨(), c.advance 1, Cursor.remaining_advance_lt Nat.one_pos
      (by intro empty; simp [empty] at there)⟩
  else fault (c.advance 1) c.position why

def blanks {buffer : Buffer} (c : Cursor buffer) : Reading buffer (c.remaining + 1) Unit :=
  ⟨(), c.skipBlanks, Nat.lt_succ_of_le c.remaining_skipBlanks_le⟩

def run {buffer : Buffer} (p : UInt8 → Bool) (c : Cursor buffer) :
    Reading buffer (c.remaining + 1) (List UInt8) :=
  ⟨c.run p, c.skip p, Nat.lt_succ_of_le (c.remaining_skip_le p)⟩

def skip {buffer : Buffer} (n : Nat) (c : Cursor buffer) : Reading buffer (c.remaining + 1) Unit :=
  ⟨(), c.advance n, Nat.lt_succ_of_le (c.remaining_advance_le n)⟩

def pop {buffer : Buffer} (c : Cursor buffer) (left : c.rest ≠ []) :
    Reading buffer c.remaining Unit :=
  ⟨(), c.advance 1, Cursor.remaining_advance_lt Nat.one_pos left⟩

/-- The node of a word that is not a call: a truth value or a path. -/
def wordNode (source : Source) (word : String) : Node :=
  if word = "true" then .literal source (.bool true)
  else if word = "false" then .literal source (.bool false)
  else .identifier source (Path.parse word)

def numberLiteral? (text : List Char) (isFloat : Bool) : Option Literal :=
  if isFloat then (Decimal.float? text).map .float else (Decimal.int64? text).map .int

def number {buffer : Buffer} (c : Cursor buffer) (left : c.rest ≠ []) :
    Except Error (Reading buffer c.remaining Node) :=
  let (length, isFloat) := numberLength c.rest
  let next := c.advance (max 1 length)
  let text := (c.rest.take length).map fun b => Char.ofNat b.toNat
  match numberLiteral? text isFloat with
  | some constant =>
    .ok ⟨.literal (next.source c.position) constant, next,
      Cursor.remaining_advance_lt (Nat.le_max_left 1 length) left⟩
  | none => fault next c.position (.number (String.ofList text))

def escaped {buffer : Buffer} (c : Cursor buffer) (left : c.rest ≠ []) :
    Reading buffer c.remaining Node :=
  let next := c.advance 2
  ⟨.raw (next.source c.position) [byte '#'], next, Cursor.remaining_advance_lt Nat.two_pos left⟩

/-- Reads raw text: one byte, whatever it is, and all up to where raw text ends. -/
def rawText {buffer : Buffer} (inBody : Bool) (c : Cursor buffer) (left : c.rest ≠ []) :
    Reading buffer c.remaining Node :=
  let length := rawLength inBody c.rest.tail + 1
  let next := c.advance length
  ⟨.raw (next.source c.position) (c.rest.take length), next,
    Cursor.remaining_advance_lt (Nat.succ_pos _) left⟩

/-- Reads the bytes of a word, of which the first is known to be one. -/
def wordBytes {buffer : Buffer} (c : Cursor buffer) (left : c.rest ≠ []) :
    Reading buffer c.remaining (List UInt8) :=
  let length := (c.rest.tail.takeWhile isWordByte).length + 1
  ⟨c.rest.take length, c.advance length, Cursor.remaining_advance_lt (Nat.succ_pos _) left⟩

/-- What a string literal holds, and the cursor after its closing quote. -/
structure StringLiteral (buffer : Buffer) (limit : Nat) where
  text : String
  template : List UInt8
  next : Cursor buffer
  below : template.length + next.remaining < limit

/-- Reads a string literal from its opening quote on. -/
def stringLiteral {buffer : Buffer} (c : Cursor buffer) (left : c.rest ≠ []) :
    Except Error (StringLiteral buffer c.remaining) :=
  let inner := c.advance 1
  match read : readQuoted inner.rest with
  | .error (why, length) => fault (inner.advance length) c.position why
  | .ok quoted =>
    let next := inner.advance quoted.length
    match Utf8.decode? quoted.plain with
    | none => fault next c.position .stringBytes
    | some text => .ok ⟨text, quoted.template, next, by
        obtain ⟨shorter, within⟩ := template_length_lt read
        have progress : inner.remaining < c.remaining :=
          Cursor.remaining_advance_lt Nat.one_pos left
        have after : next.remaining = inner.remaining - quoted.length :=
          inner.remaining_advance quoted.length
        have inside : quoted.length ≤ inner.remaining := within
        omega⟩

/-- The bytes left after a further branch, whose parts are read one after the other. -/
theorem branch_below {whole first word blank condition block others : Nat}
    (first_le : first < whole + 1) (word_le : word < first + 1) (blank_le : blank < word + 1)
    (condition_lt : condition < blank) (block_lt : block < condition)
    (others_le : others < block + 1) : others < whole + 1 := by omega

mutual

/-- Reads nodes to the end of the text, or to the end of the body opened at a position. -/
def nodes {buffer : Buffer} (opened : Option Position) (c : Cursor buffer) :
    Except Error (Reading buffer (c.remaining + 1) (List Node)) :=
  if left : c.rest = [] then
    match opened with
    | some start => fault c start .unclosedBody
    | none => .ok ⟨[], c, Nat.lt_succ_self _⟩
  else if opened.isSome && c.rest.head? == some (byte '\x7d') then
    .ok (((pop c left).map fun _ => []).widen (Nat.le_succ _))
  else do
    let ⟨node, next, below⟩ ← unit opened.isSome c left
    let others ← nodes opened next
    return (others.map (node :: ·)).widen (by omega)
termination_by c.remaining * 16 + 12
decreasing_by all_goals omega

/-- Reads an escaped `#`, a tag, or raw text. -/
def unit {buffer : Buffer} (inBody : Bool) (c : Cursor buffer) (left : c.rest ≠ []) :
    Except Error (Reading buffer c.remaining Node) :=
  if escapeAhead c.rest then .ok (escaped c left)
  else if tagAhead c.rest then tag c left
  else .ok (rawText inBody c left)
termination_by c.remaining * 16 + 11
decreasing_by all_goals omega

def tag {buffer : Buffer} (c : Cursor buffer) (left : c.rest ≠ []) :
    Except Error (Reading buffer c.remaining Node) := do
  let start := c.position
  let ⟨_, hash, progress⟩ := pop c left
  if hash.rest.head? = some (byte '(') then
    let ⟨value, next, below⟩ ← oneArgument .print start hash
    return ⟨.tag (next.source start) "" [value] none, next, by omega⟩
  else
    let ⟨bytes, named, after⟩ := run isNameByte hash
    let name := asciiText bytes
    if name = "if" then
      let ⟨condition, next, below⟩ ← oneArgument .condition start named
      let ⟨block, next, below⟩ ← requiredBody .condition start next
      let ⟨others, next, below⟩ ← branches next
      return ⟨.conditional (next.source start) condition block others, next, by omega⟩
    else if name = "for" then
      let ⟨node, next, below⟩ ← loop start named
      return ⟨node, next, by omega⟩
    else if name = "embed" then
      let ⟨path, next, below⟩ ← oneArgument .embed start named
      return ⟨.embed (next.source start) path, next, by omega⟩
    else
      let ⟨parameters, next, below⟩ ← arguments named
      if bodyAhead next.rest then
        let ⟨block, next, below⟩ ← body next
        return ⟨.tag (next.source start) name parameters (some block), next, by omega⟩
      else return ⟨.tag (next.source start) name parameters none, next, by omega⟩
termination_by c.remaining * 16 + 10
decreasing_by all_goals omega

def branches {buffer : Buffer} (c : Cursor buffer) :
    Except Error (Reading buffer (c.remaining + 1) (List (Node × List Node))) :=
  match branchAhead? c.rest with
  | none => .ok ⟨[], c, Nat.lt_succ_self _⟩
  | some length => do
    let ⟨_, first, within⟩ := skip length c
    let start := first.position
    if ifWord.isPrefixOf first.rest then
      let ⟨_, word, after⟩ := skip ifWord.length first
      let ⟨_, blank, behind⟩ := blanks word
      let ⟨condition, next, progress⟩ ← oneArgument .elseCondition start blank
      let ⟨block, next, below⟩ ← requiredBody .elseCondition start next
      let ⟨others, next, beyond⟩ ← branches next
      return ⟨(condition, block) :: others, next,
        branch_below within after behind progress below beyond⟩
    else
      let ⟨block, next, below⟩ ← requiredBody .otherwise start first
      return ⟨[(.literal (next.source start) (.bool true), block)], next,
        Nat.lt_trans below within⟩
termination_by c.remaining * 16 + 9
decreasing_by all_goals omega

def loop {buffer : Buffer} (start : Position) (c : Cursor buffer) :
    Except Error (Reading buffer c.remaining Node) := do
  let ⟨_, opened, progress⟩ ← expect (byte '(') .loopStart c
  let ⟨_, first, within⟩ := blanks opened
  let ⟨name, last, after⟩ := run isNameByte first
  if name.isEmpty then fault last first.position .loopVariable
  else
    let key := Node.literal (last.source first.position) (.string (asciiText name))
    let ⟨_, word, behind⟩ := blanks last
    if inWord.isPrefixOf word.rest && (word.rest[2]?).any Text.isAsciiBlank then
      let ⟨_, source, beyond⟩ := skip inWord.length word
      let ⟨data, next, below⟩ ← expression source
      let ⟨_, last, blank⟩ := blanks next
      let ⟨_, next, below⟩ ← expect (byte ')') .unclosedLoop last
      let ⟨block, next, below⟩ ← requiredBody .loop start next
      return ⟨.loop (next.source start) key data block, next, by omega⟩
    else fault word word.position .loopSource
termination_by c.remaining * 16 + 12
decreasing_by all_goals omega

def body {buffer : Buffer} (c : Cursor buffer) :
    Except Error (Reading buffer c.remaining (List Node)) := do
  let ⟨_, first, within⟩ := run Text.isLineBlank c
  let ⟨_, opened, progress⟩ ← expect (byte '\x7b') .bodyStart first
  let ⟨block, next, below⟩ ← nodes (some first.position) opened
  return ⟨block, next, by omega⟩
termination_by c.remaining * 16
decreasing_by all_goals omega

def requiredBody {buffer : Buffer} (construct : Construct) (start : Position)
    (c : Cursor buffer) : Except Error (Reading buffer c.remaining (List Node)) :=
  if bodyAhead c.rest then body c else fault c start (.noBody construct)
termination_by c.remaining * 16 + 1
decreasing_by all_goals omega

def arguments {buffer : Buffer} (c : Cursor buffer) :
    Except Error (Reading buffer c.remaining (List Node)) := do
  let ⟨_, opened, progress⟩ ← expect (byte '(') .argumentsStart c
  let ⟨_, first, within⟩ := blanks opened
  if first.rest.head? = some (byte ')') then
    let ⟨_, next, below⟩ := skip 1 first
    return ⟨[], next, by omega⟩
  else
    let ⟨values, next, below⟩ ← argumentList c.position first
    return ⟨values, next, by omega⟩
termination_by c.remaining * 16
decreasing_by all_goals omega

/-- Reads arguments up to the closing parenthesis of a list that starts at a position. -/
def argumentList {buffer : Buffer} (start : Position) (c : Cursor buffer) :
    Except Error (Reading buffer c.remaining (List Node)) := do
  let ⟨value, next, below⟩ ← expression c
  let ⟨_, last, within⟩ := blanks next
  let ⟨_, after, behind⟩ := skip 1 last
  match last.rest.head? with
  | none => fault after start .unclosedArguments
  | some b =>
    if b = byte ',' then
      let ⟨values, next, below⟩ ← argumentList start after
      return ⟨value :: values, next, by omega⟩
    else if b = byte ')' then return ⟨[value], after, by omega⟩
    else fault after last.position .argumentSeparator
termination_by c.remaining * 16 + 11
decreasing_by all_goals omega

def oneArgument {buffer : Buffer} (construct : Construct) (start : Position)
    (c : Cursor buffer) : Except Error (Reading buffer c.remaining Node) := do
  let ⟨values, next, below⟩ ← arguments c
  match values with
  | [value] => return ⟨value, next, below⟩
  | _ => fault next start (.notOneArgument construct)
termination_by c.remaining * 16 + 1
decreasing_by all_goals omega

def expression {buffer : Buffer} (c : Cursor buffer) :
    Except Error (Reading buffer c.remaining Node) :=
  binary levels c
termination_by c.remaining * 16 + 10
decreasing_by all_goals (simp only [levels, List.length_cons, List.length_nil]; omega)

/-- Reads operands of the tightest levels joined by the operators of the others. -/
def binary {buffer : Buffer} (loosest : List Level) (c : Cursor buffer) :
    Except Error (Reading buffer c.remaining Node) :=
  match loosest with
  | [] => negated c
  | level :: tighter => do
    let ⟨_, first, within⟩ := blanks c
    let ⟨left, next, below⟩ ← binary tighter first
    let ⟨value, next, below⟩ ← chain level tighter first.position left next
    return ⟨value, next, by omega⟩
termination_by c.remaining * 16 + loosest.length + 3
decreasing_by all_goals (simp only [List.length_cons, List.length_nil]; omega)

/-- Joins further operands to the left one as long as operators of the level follow. -/
def chain {buffer : Buffer} (level : Level) (tighter : List Level) (start : Position)
    (left : Node) (c : Cursor buffer) :
    Except Error (Reading buffer (c.remaining + 1) Node) :=
  let ⟨_, first, within⟩ := blanks c
  match operatorAhead? level first.rest with
  | none => .ok ⟨left, first, within⟩
  | some op => do
    let ⟨_, operand, after⟩ := skip op.token.length first
    let ⟨right, next, below⟩ ← binary tighter operand
    let ⟨value, next, below⟩ ←
      chain level tighter start (.infixOp (next.source start) op left right) next
    return ⟨value, next, by omega⟩
termination_by c.remaining * 16 + tighter.length + 4
decreasing_by all_goals omega

def negated {buffer : Buffer} (c : Cursor buffer) :
    Except Error (Reading buffer c.remaining Node) :=
  let ⟨_, first, within⟩ := blanks c
  if ahead : negationAhead first.rest then do
    let ⟨_, inner, progress⟩ :=
      pop first (by intro empty; simp [negationAhead, empty] at ahead)
    let ⟨operand, next, below⟩ ← negated inner
    return ⟨.negation (next.source first.position) operand, next, by omega⟩
  else do return (← atom first).widen (by omega)
termination_by c.remaining * 16 + 2
decreasing_by all_goals omega

/-- Reads a group, a string, a number, a call, a truth value or a path. -/
def atom {buffer : Buffer} (c : Cursor buffer) :
    Except Error (Reading buffer c.remaining Node) :=
  if left : c.rest = [] then fault c c.position .expressionAtEnd
  else if c.rest.head? = some (byte '(') then do
    let ⟨_, inner, progress⟩ := pop c left
    let ⟨value, next, below⟩ ← expression inner
    let ⟨_, last, within⟩ := blanks next
    let ⟨_, next, below⟩ ← expect (byte ')') .unclosedGroup last
    return ⟨value, next, by omega⟩
  else if c.rest.head? = some (byte '"') then string c left
  else if numberAhead c.rest then number c left
  else if c.rest.head?.any fun b => isLetter b || b == byte '_' then
    word c left
  else fault c c.position .noExpression
termination_by c.remaining * 16 + 1
decreasing_by all_goals omega

/-- Reads a call, a truth value or a path. -/
def word {buffer : Buffer} (c : Cursor buffer) (left : c.rest ≠ []) :
    Except Error (Reading buffer c.remaining Node) := do
  let ⟨bytes, next, progress⟩ := wordBytes c left
  let word := asciiText bytes
  if next.rest.head? = some (byte '(') && !bytes.contains (byte '.') then
    let ⟨parameters, next, below⟩ ← arguments next
    return ⟨.tag (next.source c.position) word parameters none, next, by omega⟩
  else return ⟨wordNode (next.source c.position) word, next, progress⟩
termination_by c.remaining * 16
decreasing_by all_goals omega

/-- Reads a string literal. One with template syntax of its own is read again as a template, in a
buffer of its own under the same label. -/
def string {buffer : Buffer} (c : Cursor buffer) (left : c.rest ≠ []) :
    Except Error (Reading buffer c.remaining Node) := do
  let ⟨text, template, next, below⟩ ← stringLiteral c left
  let source := next.source c.position
  let plain := Node.literal source (.string text)
  if template.contains (byte '#') then
    let ⟨parts, _, _⟩ ← nodes none (Cursor.start ⟨buffer.file, template⟩)
    let value := if parts.all Node.isRaw then plain else .interpolated source parts
    return ⟨value, next, by omega⟩
  else return ⟨plain, next, by omega⟩
termination_by c.remaining * 16
decreasing_by all_goals (simp only [Cursor.remaining_start]; omega)

end

/-- The tree of a template. -/
def parse (buffer : Buffer) : Except Error (List Node) := do
  let read ← nodes none (Cursor.start buffer)
  return read.value

end Stencil.Grammar.Kit
