import Stencil.Calendar.Format
import Stencil.Markup
import Stencil.Tag
import Stencil.Text.CaseMap

/-! # Built-in tags

| name | usage |
|---|---|
| the empty name | `#(value)`: print, escaped for markup |
| `get` | `#get(value)`: print without escaping |
| `contains` | `#contains(array, item)` |
| `lowercase`, `uppercase`, `capitalize` | `#lowercase(text)` |
| `count` | `#count(array_or_map)` |
| `set`, `var` | `#set("key", value)` or `#set("key") { body }` |
| `date` | `#date(unix_seconds, "[year]-[month]-[day]")` |
| `comment` | `#comment() { ignored }` |
-/

namespace Stencil.Tags

/-- The text of the only parameter; what is no text prints as nothing. -/
def singleText (call : Call) : Evaluation String := do
  call.requireCount 1
  return (call.parameter 0).asString.getD ""

/-- Prints a parameter, escaped for markup. -/
def print : Handler := fun call => do
  call.requireNoBody
  return .string (Markup.escape (← singleText call))

/-- Prints a parameter as it is. -/
def verbatim : Handler := fun call => do
  call.requireNoBody
  return .string (← singleText call)

/-- The first parameter is an array that has the second as an item. -/
def holds (container item : Value) : Bool :=
  match container.asArray with
  | some items => items.any fun candidate => candidate.same item
  | none => false

def contains : Handler := fun call => do
  call.requireCount 2
  return .bool (holds (call.parameter 0) (call.parameter 1))

def textMap (f : String → String) : Handler := fun call => return .string (f (← singleText call))

/-- The number of items or entries; null for what has neither. -/
def count : Handler := fun call => do
  call.requireCount 1
  return match call.parameter 0 with
    | .array items => .int (Int64.ofNat items.length)
    | .map entries => .int (Int64.ofNat entries.length)
    | _ => .null

def comment : Handler := fun _ => return .null

/-- The value that a call assigns: its second parameter, or else the text of its body. -/
def assigned (call : Call) : Evaluation Value := do
  if call.parameters.length = 1 then return .string (← call.bodyText)
  else
    call.requireNoBody
    return call.parameter 1

/-- Writes a value at the path that the first parameter spells: the second parameter, or the text
of the body. -/
def assign : Handler := fun call => do
  let given := call.parameters.length
  if given = 1 ∨ given = 2 then
    match (call.parameter 0).asString with
    | none => call.reject .keyType
    | some key =>
      let value ← assigned call
      match (← Evaluation.data).trySet (Path.parse key) value with
      | .ok changed =>
        set changed
        return .null
      | .error refused => call.reject (.outOfReach refused)
  else call.reject (.parameterCount given 2)

def defaultPattern : String := "[year]-[month]-[day] [hour]:[minute]:[second]"

/-- The key of the notes that holds the parsed date patterns. -/
def patternsKey : String := "templatekit.date.formats"

/-- The parsed patterns among the notes; there is an empty memo when there was none. -/
def memo (s : Store) : List (String × Calendar.Pattern) × Store :=
  let (found, notes, _) := s.notes.findOrInsert patternsKey Note.patterns? [] Note.patterns
  (found, { s with notes })

/-- The parse of a pattern, looked up in the notes and kept there if it is new. -/
def patternOf (text : String) (s : Store) : Option Calendar.Pattern × Store :=
  let (known, s) := memo s
  match known.lookup text with
  | some pattern => (some pattern, s)
  | none =>
    match Calendar.Pattern.parse? text with
    | some pattern =>
      (some pattern,
        { s with notes := s.notes.insert patternsKey (.patterns ((text, pattern) :: known)) })
    | none => (none, s)

def patternText? : Value → Option String
  | .null => some defaultPattern
  | other => other.asString

/-- Formats seconds since the first moment of 1970. -/
def date : Handler := fun call => do
  let given := call.parameters.length
  if given = 1 ∨ given = 2 then
    match (call.parameter 0).asFloat with
    | none => call.reject .timestamp
    | some seconds =>
      match patternText? (call.parameter 1) with
      | none => call.reject .dateFormatType
      | some text =>
        match ← Evaluation.store (patternOf text) with
        | none => call.reject .dateFormat
        | some pattern =>
          match (Calendar.Instant.ofSeconds? seconds).bind pattern.format? with
          | none => call.reject .dateRange
          | some text => return .string text
  else call.reject (.parameterCount given 2)

def builtin : Registry :=
  Registry.empty.registerAll
    [("", print), ("get", verbatim), ("contains", contains),
     ("lowercase", textMap Text.lowercase), ("uppercase", textMap Text.uppercase),
     ("capitalize", textMap Text.capitalize), ("count", count), ("set", assign), ("var", assign),
     ("date", date), ("comment", comment)]

end Stencil.Tags
