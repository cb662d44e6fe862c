/-! # Escaping for markup

The five characters that mean something in the text or in an attribute of a markup document are
written as entities. A text without them is left as it is.
-/

namespace Stencil.Markup

/-- The name of the entity that stands for a character, if it has to be escaped. -/
def entity? (c : Char) : Option String :=
  if c = '&' then some "&amp;"
  else if c = '<' then some "&lt;"
  else if c = '>' then some "&gt;"
  else if c = '"' then some "&quot;"
  else if c = '\'' then some "&#39;"
  else none

def escapeChar (c : Char) : List Char :=
  match entity? c with
  | some entity => entity.toList
  | none => [c]

def escapeChars (cs : List Char) : List Char := cs.flatMap escapeChar

def isPlain (c : Char) : Bool := (entity? c).isNone

/-- The escaped text, or none when nothing in it has to be escaped. What comes before the first
such character is taken over as it is. -/
def escaped? (s : String) : Option String :=
  match s.toList.dropWhile isPlain with
  | [] => none
  | rest => some (String.ofList (s.toList.takeWhile isPlain ++ escapeChars rest))

def escape (s : String) : String := (escaped? s).getD s

end Stencil.Markup
