import Stencil.Text.Reading

/-! # Date patterns

A pattern is literal text with components in brackets, such as `[year]-[month repr:short]`. A
component is a name and modifiers of the form `key:value`, all without regard to case. A backslash
escapes a bracket or a backslash. `[optional [...]]` and `[first [...] [...]]` hold patterns, after
their modifiers, in which everything outside of brackets is literal.
-/

namespace Stencil.Calendar

/-- How a number is filled up to its width. -/
inductive Padding
  | zero | space | none
  deriving DecidableEq, Repr

inductive MonthStyle
  | numerical | long | short
  deriving DecidableEq, Repr

/-- How a day of the week is written. -/
inductive WeekdayStyle
  | long | short | sunday | monday
  deriving DecidableEq, Repr

/-- How the weeks of a year are counted. -/
inductive WeekStyle
  | iso | sunday | monday
  deriving DecidableEq, Repr

/-- Which part of a year is written. -/
inductive YearStyle
  | full | century | lastTwo
  deriving DecidableEq, Repr

/-- The unit of a timestamp. -/
inductive Precision
  | second | millisecond | microsecond | nanosecond
  deriving DecidableEq, Repr

/-- A component of a pattern. Fractions of a second have a number of digits, or as many as they
need. -/
inductive Component
  | day (padding : Padding)
  | hour (padding : Padding) (twelve : Bool)
  | minute (padding : Padding)
  | second (padding : Padding)
  | subsecond (digits : Option Nat)
  | period (upper : Bool)
  | month (padding : Padding) (style : MonthStyle)
  | ordinal (padding : Padding)
  | weekday (style : WeekdayStyle) (oneIndexed : Bool)
  | weekNumber (padding : Padding) (style : WeekStyle)
  | year (padding : Padding) (style : YearStyle) (isoWeek signed : Bool)
  | offset (padding : Padding) (signed : Bool)
  | timestamp (precision : Precision) (signed : Bool)
  | nothing
  deriving DecidableEq, Repr

inductive Piece
  | literal (text : List Char)
  | component (component : Component)
  deriving DecidableEq, Repr

abbrev Pattern := List Piece

namespace Pattern

/-- A token of a pattern: text outside of brackets, a bracket, a run of blanks or of other
characters inside of them, or an escape of nothing. -/
inductive Token
  | literal (c : Char)
  | opening
  | closing
  | blank (text : List Char)
  | part (text : List Char)
  | invalid
  deriving DecidableEq, Repr

/-- The run of characters inside of brackets that is being read, the last character first. -/
inductive Run
  | none
  | blank (reversed : List Char)
  | part (reversed : List Char)

def Run.flush : Run → List Token → List Token
  | none, tokens => tokens
  | blank reversed, tokens => .blank reversed.reverse :: tokens
  | part reversed, tokens => .part reversed.reverse :: tokens

def isBlankChar (c : Char) : Bool := c.toNat < 128 && Text.isAsciiBlank c.toUInt8

/-- The tokens of a pattern inside of `depth` brackets. -/
def lex (depth : Nat) (run : Run) : List Char → List Token
  | [] => run.flush []
  | '\\' :: [] => run.flush [.invalid]
  | '\\' :: c :: rest =>
    if c = '\\' ∨ c = '[' ∨ c = ']' then
      run.flush ((if depth = 0 then .literal c else .part [c]) :: lex depth .none rest)
    else run.flush (.invalid :: lex depth .none rest)
  | c :: rest =>
    if c = '[' then run.flush (.opening :: lex (depth + 1) .none rest)
    else if depth = 0 then .literal c :: lex depth .none rest
    else if c = ']' then run.flush (.closing :: lex (depth - 1) .none rest)
    else if isBlankChar c then
      match run with
      | .blank reversed => lex depth (.blank (c :: reversed)) rest
      | run => run.flush (lex depth (.blank [c]) rest)
    else
      match run with
      | .part reversed => lex depth (.part (c :: reversed)) rest
      | run => run.flush (lex depth (.part [c]) rest)

abbrev Modifier := List Char × List Char

/-- A modifier in lower case: what stands before and after the first colon, neither empty. -/
def modifier? (text : List Char) : Option Modifier :=
  let key := text.takeWhile (· != ':')
  match text.dropWhile (· != ':') with
  | _ :: value =>
    if key.isEmpty || value.isEmpty then none
    else some (key.map Char.toLower, value.map Char.toLower)
  | [] => none

/-- The value of the last modifier under a key; `fallback` when there is none. -/
def choose (modifiers : List Modifier) (key : String) (values : List (String × α))
    (fallback : α) : Option α :=
  modifiers.foldlM (fun chosen modifier =>
    if String.ofList modifier.1 = key then values.lookup (String.ofList modifier.2)
    else some chosen) fallback

def keysAmong (modifiers : List Modifier) (keys : List String) : Bool :=
  modifiers.all fun modifier => keys.contains (String.ofList modifier.1)

def truths : List (String × Bool) := [("false", false), ("true", true)]

def signs : List (String × Bool) := [("automatic", false), ("mandatory", true)]

def padding (modifiers : List Modifier) : Option Padding :=
  choose modifiers "padding" [("space", .space), ("zero", .zero), ("none", .none)] .zero

/-- A number of characters to leave out: not zero, and of 16 bits. -/
def countsCharacters (modifiers : List Modifier) : Bool :=
  let counts := modifiers.filter fun modifier => modifier.1 == ['c', 'o', 'u', 'n', 't']
  !counts.isEmpty && counts.all fun modifier =>
    let digits := match modifier.2 with
      | '+' :: rest => rest
      | cs => cs
    let n := digits.foldl (fun n c => 10 * n + (c.toNat - 48)) 0
    !digits.isEmpty && digits.all Char.isDigit && 0 < n && n < 65536

def component? (name : String) (modifiers : List Modifier) : Option Component := do
  let keys (known : List String) : Option Unit := guard (keysAmong modifiers known)
  match name with
  | "day" =>
    keys ["padding"]
    return .day (← padding modifiers)
  | "end" =>
    keys ["trailing_input"]
    let _ ← choose modifiers "trailing_input" [("prohibit", false), ("discard", true)] false
    return .nothing
  | "hour" =>
    keys ["padding", "repr"]
    return .hour (← padding modifiers)
      (← choose modifiers "repr" [("12", true), ("24", false)] false)
  | "ignore" =>
    keys ["count"]
    guard (countsCharacters modifiers)
    return .nothing
  | "minute" =>
    keys ["padding"]
    return .minute (← padding modifiers)
  | "month" =>
    keys ["padding", "repr", "case_sensitive"]
    let _ ← choose modifiers "case_sensitive" truths true
    return .month (← padding modifiers) (← choose modifiers "repr"
      [("numerical", .numerical), ("long", .long), ("short", .short)] .numerical)
  | "offset_hour" =>
    keys ["padding", "sign"]
    return .offset (← padding modifiers) (← choose modifiers "sign" signs false)
  | "offset_minute" | "offset_second" =>
    keys ["padding"]
    return .offset (← padding modifiers) false
  | "ordinal" =>
    keys ["padding"]
    return .ordinal (← padding modifiers)
  | "period" =>
    keys ["case", "case_sensitive"]
    let _ ← choose modifiers "case_sensitive" truths true
    return .period (← choose modifiers "case" [("lower", false), ("upper", true)] true)
  | "second" =>
    keys ["padding"]
    return .second (← padding modifiers)
  | "subsecond" =>
    keys ["digits"]
    return .subsecond (← choose modifiers "digits"
      (("1+", none) :: (List.range' 1 9).map fun n => (toString n, some n)) none)
  | "unix_timestamp" =>
    keys ["precision", "sign"]
    return .timestamp (← choose modifiers "precision"
      [("second", .second), ("millisecond", .millisecond), ("microsecond", .microsecond),
       ("nanosecond", .nanosecond)] .second) (← choose modifiers "sign" signs false)
  | "weekday" =>
    keys ["repr", "one_indexed", "case_sensitive"]
    let _ ← choose modifiers "case_sensitive" truths true
    return .weekday (← choose modifiers "repr"
      [("long", .long), ("short", .short), ("sunday", .sunday), ("monday", .monday)] .long)
      (← choose modifiers "one_indexed" truths true)
  | "week_number" =>
    keys ["padding", "repr"]
    return .weekNumber (← padding modifiers) (← choose modifiers "repr"
      [("iso", .iso), ("sunday", .sunday), ("monday", .monday)] .iso)
  | "year" =>
    keys ["padding", "repr", "range", "base", "sign"]
    let _ ← choose modifiers "range" [("standard", false), ("extended", true)] true
    return .year (← padding modifiers)
      (← choose modifiers "repr"
        [("full", .full), ("century", .century), ("last_two", .lastTwo)] .full)
      (← choose modifiers "base" [("calendar", false), ("iso_week", true)] false)
      (← choose modifiers "sign" signs false)
  | _ => none

/-- What was read from tokens, none when they do not write it, and in either case the tokens after
the last one that was looked into. -/
abbrev Parsed (limit : Nat) (α : Type) := Text.Taken Token limit (Option α)

/-- The modifiers of a component. A nested pattern is set apart from what comes before it. -/
def modifiers (tokens : List Token) : Parsed (tokens.length + 1) (List Modifier) :=
  match tokens with
  | .blank _ :: .part text :: rest =>
    match modifier? text, modifiers rest with
    | some modifier, ⟨others, rest, within⟩ =>
      ⟨others.map (modifier :: ·), rest, by simp only [List.length_cons]; omega⟩
    | none, _ => ⟨none, rest, by simp only [List.length_cons]; omega⟩
  | .blank _ :: rest => ⟨some [], rest, by simp only [List.length_cons]; omega⟩
  | .opening :: rest => ⟨none, .opening :: rest, by simp⟩
  | tokens => ⟨some [], tokens, Nat.lt_succ_self _⟩

/-- The pieces that a name in brackets stands for, with its modifiers and the patterns nested in
it: `optional` for its one pattern, `first` for the first of its patterns, if any, and others for
a component, which has none. An optional pattern is always written, so it cannot be asked to be
left out. -/
def named? (name : String) (modifiers : List Modifier) (nested : List Pattern) :
    Option Pattern :=
  match name, nested with
  | "optional", [pattern] => do
    guard (keysAmong modifiers ["format"])
    guard (← choose modifiers "format" truths true)
    return pattern
  | "optional", _ => none
  | "first", patterns => do
    guard modifiers.isEmpty
    return patterns.headD []
  | name, [] => (component? name modifiers).map fun component => [.component component]
  | _, _ :: _ => none

/-- The tokens after a blank, if there is one. -/
def skipBlank (tokens : List Token) : Text.Taken Token (tokens.length + 1) Unit :=
  match tokens with
  | .blank _ :: rest => ⟨(), rest, by simp only [List.length_cons]; omega⟩
  | tokens => ⟨(), tokens, Nat.lt_succ_self _⟩

/-- What was read, and a closing bracket after it. -/
def close (read : Parsed limit α) : Parsed limit α :=
  match read with
  | ⟨none, rest, below⟩ => ⟨none, rest, below⟩
  | ⟨some a, rest, below⟩ =>
    match rest, below with
    | .closing :: rest, below => ⟨some a, rest, Nat.lt_of_succ_lt below⟩
    | rest, below => ⟨none, rest, below⟩

def prepend (first : Pattern) (others : Parsed limit Pattern) : Parsed (limit + 1) Pattern :=
  ⟨others.value.map (first ++ ·), others.rest, Nat.lt_succ_of_lt others.below⟩

mutual

/-- Reads pieces up to the end, or up to the closing bracket of a nested pattern. A closing bracket
that closes nothing stands for itself. -/
def pieces (nested : Bool) (tokens : List Token) : Parsed (tokens.length + 1) Pattern :=
  match tokens with
  | [] => ⟨some [], [], by simp⟩
  | .invalid :: rest => ⟨none, rest, by simp only [List.length_cons]; omega⟩
  | .literal c :: rest => prepend [.literal [c]] (pieces nested rest)
  | .blank text :: rest => prepend [.literal text] (pieces nested rest)
  | .part text :: rest => prepend [.literal text] (pieces nested rest)
  | .closing :: rest =>
    if nested then ⟨some [], .closing :: rest, by simp⟩
    else prepend [.literal [']']] (pieces nested rest)
  | .opening :: rest =>
    match bracket rest with
    | ⟨none, rest, _⟩ => ⟨none, rest, by simp only [List.length_cons]; omega⟩
    | ⟨some first, rest, _⟩ =>
      let ⟨others, rest, _⟩ := pieces nested rest
      ⟨others.map (first ++ ·), rest, by simp only [List.length_cons]; omega⟩
termination_by tokens.length * 2
decreasing_by all_goals (simp only [List.length_cons]; omega)

/-- Reads what stands in brackets, after the opening one. -/
def bracket (tokens : List Token) : Parsed (tokens.length + 1) Pattern :=
  let ⟨_, tokens', _⟩ := skipBlank tokens
  match tokens' with
  | .part name :: rest =>
    match modifiers rest with
    | ⟨none, rest, _⟩ => ⟨none, rest, by grind⟩
    | ⟨some found, rest, _⟩ =>
      let ⟨nested, rest, _⟩ := choices rest
      let closed : Parsed (tokens.length + 1) (List Pattern) := ⟨some nested, rest, by grind⟩
      let ⟨nested, rest, _⟩ := close closed
      ⟨nested.bind (named? (String.ofList (name.map Char.toLower)) found), rest, by grind⟩
  | tokens' => ⟨none, tokens', by grind⟩
termination_by tokens.length * 2
decreasing_by grind

/-- Reads patterns in brackets. The first that cannot be read ends them, and what comes next starts
where its reading stopped. -/
def choices (tokens : List Token) : Text.Taken Token (tokens.length + 1) (List Pattern) :=
  match tokens with
  | .opening :: rest =>
    match nested rest with
    | ⟨none, rest, _⟩ => ⟨[], rest, by simp only [List.length_cons]; omega⟩
    | ⟨some first, rest, _⟩ =>
      let ⟨others, rest, _⟩ := choices rest
      ⟨first :: others, rest, by simp only [List.length_cons]; omega⟩
  | tokens => ⟨[], tokens, Nat.lt_succ_self _⟩
termination_by tokens.length * 2
decreasing_by all_goals (simp only [List.length_cons]; omega)

/-- Reads a pattern after its opening bracket, its closing one and a blank after that. -/
def nested (tokens : List Token) : Parsed (tokens.length + 1) Pattern :=
  match close (pieces true tokens) with
  | ⟨none, rest, _⟩ => ⟨none, rest, by omega⟩
  | ⟨some pattern, rest, _⟩ =>
    let ⟨_, rest, _⟩ := skipBlank rest
    ⟨some pattern, rest, by omega⟩
termination_by tokens.length * 2 + 1

end

def parse? (text : String) : Option Pattern := (pieces false (lex 0 .none text.toList)).value

end Pattern

end Stencil.Calendar
