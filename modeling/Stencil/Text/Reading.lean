/-! # Reading texts

What readers of a text go by: sets of characters, which are lists of closed ranges of code points as
the tables of Unicode give them, the two sets of blanks, and what a reader returns. The property
White_Space serves trimming and the words of values; the five ASCII blanks may stand between the
tokens of a template.
-/

namespace Stencil.Text

namespace CodeRange

def contains (ranges : List (Nat × Nat)) (c : Char) : Bool :=
  ranges.any fun range => range.1 ≤ c.toNat && c.toNat ≤ range.2

end CodeRange

/-- Property White_Space. -/
def blankRanges : List (Nat × Nat) :=
  [(0x9, 0xD), (0x20, 0x20), (0x85, 0x85), (0xA0, 0xA0), (0x1680, 0x1680), (0x2000, 0x200A),
   (0x2028, 0x2029), (0x202F, 0x202F), (0x205F, 0x205F), (0x3000, 0x3000)]

def isBlank (c : Char) : Bool := CodeRange.contains blankRanges c

/-- The text without the blanks at its two ends. -/
def trim (cs : List Char) : List Char :=
  ((cs.dropWhile isBlank).reverse.dropWhile isBlank).reverse

/-- Space, tab, line feed, form feed or carriage return. -/
def isAsciiBlank (b : UInt8) : Bool :=
  b == 0x20 || b == 0x09 || b == 0x0A || b == 0x0C || b == 0x0D

def isLineBlank (b : UInt8) : Bool := b == 0x20 || b == 0x09

/-- A value read from the front of a list of `τ`, with fewer than `limit` elements left after it. A
reader that takes at least one element bounds what is left by the length before. -/
structure Taken (τ : Type) (limit : Nat) (α : Type) where
  value : α
  rest : List τ
  below : rest.length < limit

end Stencil.Text
