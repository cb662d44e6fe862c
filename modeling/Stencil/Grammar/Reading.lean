import Stencil.Cursor
import Stencil.Syntax

/-! # Results of reading

What a rule of a grammar read, and the cursor after it with a bound on what remains. A rule that
consumes at least one byte bounds it by what remained before, so that rules may call each other
as long as bytes are left.
-/

namespace Stencil.Grammar

/-- A value read from a buffer, with fewer than `limit` bytes left after it. -/
structure Reading (buffer : Buffer) (limit : Nat) (α : Type) where
  value : α
  next : Cursor buffer
  below : next.remaining < limit

namespace Reading

variable {buffer : Buffer} {limit : Nat} {α β : Type}

def widen (r : Reading buffer limit α) {larger : Nat} (le : limit ≤ larger) :
    Reading buffer larger α :=
  ⟨r.value, r.next, Nat.lt_of_lt_of_le r.below le⟩

/-- The reading of another value up to the same place. -/
def map (f : α → β) (r : Reading buffer limit α) : Reading buffer limit β :=
  ⟨f r.value, r.next, r.below⟩

end Reading

/-- A fault at the stretch from an earlier position to the cursor. -/
def fault {buffer : Buffer} {α : Type} (c : Cursor buffer) (opened : Position)
    (why : ParseFault) : Except Error α :=
  .error (.parse why (c.source opened))

/-- Reads the next byte, or reports the end of the text. -/
def require {buffer : Buffer} (c : Cursor buffer) : Except Error (UInt8 × Cursor buffer) :=
  match c.rest with
  | [] => fault c c.position .unexpectedEnd
  | b :: _ => .ok (b, c.advance 1)

/-- Reads `n` bytes, or reports the end of the text; the cursor stands after what could be read. -/
def requireMany {buffer : Buffer} (n : Nat) (c : Cursor buffer) :
    Except Error Unit × Cursor buffer :=
  let next := c.advance n
  (if n ≤ c.remaining then .ok () else fault next next.position .unexpectedEnd, next)

abbrev byte (c : Char) : UInt8 := c.toUInt8

def isLetter (b : UInt8) : Bool :=
  (byte 'a' ≤ b && b ≤ byte 'z') || (byte 'A' ≤ b && b ≤ byte 'Z')

def isDigit (b : UInt8) : Bool := byte '0' ≤ b && b ≤ byte '9'

def asciiText (bytes : List UInt8) : String := String.ofList (bytes.map fun b => Char.ofNat b.toNat)

end Stencil.Grammar
