import Stencil.Decimal.Reading

/-! # Paths into data

A path is a list of segments, each the key of a map or the index of an array. Its dotted text
leaves empty components out, and a component of digits alone that fits an index is one.
-/

namespace Stencil

/-- One step of a path. -/
inductive Segment
  | key (name : String)
  | index (place : Nat)
  deriving DecidableEq, Repr

/-- The segment a component of a dotted text stands for. -/
def Segment.parse (text : String) : Segment :=
  match (Decimal.natural? text.toList).filter (· ≤ Decimal.greatestIndex) with
  | some place => index place
  | none => key text

/-- The text of a segment: the key itself, or the index in decimal. -/
def Segment.name : Segment → String
  | key name => name
  | index place => toString place

/-- The place in an array that a segment names: an index itself, or a key that reads as one. -/
def Segment.place? : Segment → Option Nat
  | key name => Decimal.index? name
  | index place => some place

/-- A path such as `user.friends.0.name`. -/
structure Path where
  segments : List Segment
  deriving DecidableEq, Repr

namespace Path

/-- The pieces of a text between the occurrences of a character; there is always one. -/
def pieces (separator : Char) : List Char → List (List Char)
  | [] => [[]]
  | c :: rest =>
    if c = separator then [] :: pieces separator rest
    else match pieces separator rest with
      | [] => [[c]]
      | first :: others => (c :: first) :: others

def parse (text : String) : Path where
  segments := ((pieces '.' text.toList).filter (!·.isEmpty)).map
    fun component => Segment.parse (String.ofList component)

/-- The text of the segments after the first: a period before a key, brackets around an index. -/
def tail : List Segment → String
  | [] => ""
  | .key name :: rest => "." ++ name ++ tail rest
  | .index place :: rest => "[" ++ toString place ++ "]" ++ tail rest

def describe (path : Path) : String :=
  match path.segments with
  | .key name :: rest => name ++ tail rest
  | segments => tail segments

def isEmpty (path : Path) : Bool := path.segments.isEmpty

end Path

end Stencil
