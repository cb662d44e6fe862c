import Stencil.Text.Reading

/-! # JSON

A reader for JSON texts. Strings keep whether their escapes make sense: a text with half of a
surrogate pair is well formed but has no characters to stand for.
-/

namespace Stencil.Json

/-- A JSON value; of numbers only the presence is kept. -/
inductive Value
  | null
  | bool (b : Bool)
  | number
  | string (s : Option String)
  | array (items : List Value)
  | object (members : List (Option String × Value))

inductive Token
  | mark (c : Char)
  | scalar (value : Value)
  | string (s : Option String)

/-- One piece of a string: a character, or the unit of a hexadecimal escape. -/
inductive Unit16
  | char (c : Char)
  | escape (n : Nat)

/-- The characters of the pieces; none for half of a surrogate pair. -/
def characters? : List Unit16 → Option (List Char)
  | [] => some []
  | .char c :: rest => (characters? rest).map (c :: ·)
  | .escape high :: .escape low :: rest =>
    if 0xD800 ≤ high ∧ high < 0xDC00 then
      if 0xDC00 ≤ low ∧ low < 0xE000 then
        (characters? rest).map
          (Char.ofNat (0x10000 + (high - 0xD800) * 0x400 + (low - 0xDC00)) :: ·)
      else none
    else if 0xDC00 ≤ high ∧ high < 0xE000 then none
    else (characters? (.escape low :: rest)).map (Char.ofNat high :: ·)
  | .escape n :: rest =>
    if 0xD800 ≤ n ∧ n < 0xE000 then none else (characters? rest).map (Char.ofNat n :: ·)

def hexDigit? (c : Char) : Option Nat :=
  if c.isDigit then some (c.toNat - 48)
  else if 'a' ≤ c ∧ c ≤ 'f' then some (c.toNat - 87)
  else if 'A' ≤ c ∧ c ≤ 'F' then some (c.toNat - 55)
  else none

def shortEscape? (c : Char) : Option Char :=
  [('"', '"'), ('\\', '\\'), ('/', '/'), ('b', '\x08'), ('f', '\x0c'), ('n', '\n'), ('r', '\r'),
   ('t', '\t')].lookup c

/-- Puts a piece in front of those read after it. -/
def piece (unit : Unit16) :
    Option (List Unit16 × List Char) → Option (List Unit16 × List Char) :=
  Option.map fun (units, rest) => (unit :: units, rest)

/-- The pieces of a string after its opening quote, and what follows its closing one. -/
def string? : List Char → Option (List Unit16 × List Char)
  | [] => none
  | '\\' :: 'u' :: a :: b :: c :: d :: rest =>
    match hexDigit? a, hexDigit? b, hexDigit? c, hexDigit? d with
    | some a, some b, some c, some d =>
      piece (.escape (((a * 16 + b) * 16 + c) * 16 + d)) (string? rest)
    | _, _, _, _ => none
  | '\\' :: c :: rest =>
    match shortEscape? c with
    | some meant => piece (.char meant) (string? rest)
    | none => none
  | c :: rest =>
    if c = '"' then some ([], rest)
    else if c = '\\' ∨ c.toNat < 0x20 then none
    else piece (.char c) (string? rest)

/-- Some digits, with what follows all of them. -/
def digits? (cs : List Char) : Option (List Char) :=
  if cs.head?.any Char.isDigit then some (cs.dropWhile Char.isDigit) else none

/-- What follows an optional exponent. -/
def exponent? : List Char → Option (List Char)
  | c :: rest =>
    if c = 'e' ∨ c = 'E' then
      match rest with
      | '+' :: more | '-' :: more => digits? more
      | _ => digits? rest
    else some (c :: rest)
  | [] => some []

/-- What follows an optional fraction and an optional exponent. -/
def fraction? : List Char → Option (List Char)
  | '.' :: rest => (digits? rest).bind exponent?
  | rest => exponent? rest

/-- What follows a number without its sign: no digit may come after a leading zero. -/
def number? : List Char → Option (List Char)
  | '0' :: rest => if rest.head?.any Char.isDigit then none else fraction? rest
  | rest => (digits? rest).bind fraction?

def isBlank (c : Char) : Bool := c == ' ' || c == '\n' || c == '\t' || c == '\r'

def word? (letters : String) : Option Value :=
  [("null", .null), ("true", .bool true), ("false", .bool false)].lookup letters

/-- The next token of a text without leading blanks, and what follows it. -/
def token? : List Char → Option (Token × List Char)
  | [] => none
  | c :: rest =>
    if c = '"' then (string? rest).map fun (units, rest) =>
      (.string ((characters? units).map String.ofList), rest)
    else if c ∈ ['[', ']', '\x7b', '\x7d', ',', ':'] then some (.mark c, rest)
    else if c = '-' then (number? rest).map fun rest => (.scalar .number, rest)
    else if c.isDigit then (number? (c :: rest)).map fun rest => (.scalar .number, rest)
    else if c.isAlpha then
      (word? (String.ofList (c :: rest.takeWhile Char.isAlpha))).map fun value =>
        (.scalar value, rest.dropWhile Char.isAlpha)
    else none

/-- The tokens of a text, of which at most `limit` are read; none when something in it is not a
token. A text has at most as many tokens as characters. -/
def tokens? : Nat → List Char → Option (List Token)
  | 0, cs => if cs.all isBlank then some [] else none
  | limit + 1, cs =>
    match cs.dropWhile isBlank with
    | [] => some []
    | cs => (token? cs).bind fun (token, rest) => (tokens? limit rest).map (token :: ·)

abbrev Parsed (limit : Nat) (α : Type) := Text.Taken Token limit α

/-- Reads what follows an item: a comma, after which there is more, or the closing mark. -/
def more? (closing : Char) (tokens : List Token) : Option (Parsed tokens.length Bool) :=
  match tokens with
  | .mark c :: rest =>
    if c = ',' then some ⟨true, rest, Nat.lt_succ_self _⟩
    else if c = closing then some ⟨false, rest, Nat.lt_succ_self _⟩
    else none
  | _ => none

mutual

def value? (tokens : List Token) : Option (Parsed tokens.length Value) :=
  match tokens with
  | .scalar value :: rest => some ⟨value, rest, Nat.lt_succ_self _⟩
  | .string s :: rest => some ⟨.string s, rest, Nat.lt_succ_self _⟩
  | .mark '[' :: .mark ']' :: rest =>
    some ⟨.array [], rest, by simp only [List.length_cons]; omega⟩
  | .mark '[' :: rest => do
    let ⟨items, rest, _⟩ ← items? rest
    return ⟨.array items, rest, by simp only [List.length_cons]; omega⟩
  | .mark '\x7b' :: .mark '\x7d' :: rest =>
    some ⟨.object [], rest, by simp only [List.length_cons]; omega⟩
  | .mark '\x7b' :: rest => do
    let ⟨members, rest, _⟩ ← members? rest
    return ⟨.object members, rest, by simp only [List.length_cons]; omega⟩
  | _ => none
termination_by tokens.length * 2
decreasing_by all_goals (simp only [List.length_cons]; omega)

def items? (tokens : List Token) : Option (Parsed tokens.length (List Value)) := do
  let ⟨first, rest, _⟩ ← value? tokens
  let ⟨more, rest, _⟩ ← more? ']' rest
  if more then
    let ⟨others, rest, _⟩ ← items? rest
    return ⟨first :: others, rest, by omega⟩
  else return ⟨[first], rest, by omega⟩
termination_by tokens.length * 2 + 1
decreasing_by all_goals omega

/-- Reads the members of an object up to its closing brace. -/
def members? (tokens : List Token) :
    Option (Parsed tokens.length (List (Option String × Value))) :=
  match tokens with
  | .string key :: .mark ':' :: tokens => do
    let ⟨value, rest, _⟩ ← value? tokens
    let ⟨more, rest, _⟩ ← more? '\x7d' rest
    if more then
      let ⟨others, rest, _⟩ ← members? rest
      return ⟨(key, value) :: others, rest, by simp only [List.length_cons]; omega⟩
    else return ⟨[(key, value)], rest, by simp only [List.length_cons]; omega⟩
  | _ => none
termination_by tokens.length * 2 + 1
decreasing_by all_goals (simp only [List.length_cons]; omega)

end

def parse? (text : String) : Option Value := do
  let tokens ← tokens? text.length text.toList
  match value? tokens with
  | some ⟨value, [], _⟩ => return value
  | _ => none

end Stencil.Json
