import Stencil.Source
import Stencil.Text.Reading

/-! # Reading a buffer byte by byte

A cursor of a buffer holds a position and the bytes that remain, together with the fact that the
position is the one after the bytes already read. All cursors of one reading share the buffer by
their type, so every source they close lies in it.
-/

namespace Stencil

/-- Some bytes at the beginning of the text lead to the position and leave `rest`. -/
def Buffer.Reaches (buffer : Buffer) (position : Position) (rest : List UInt8) : Prop :=
  ∃ read, buffer.text = read ++ rest ∧ position = Position.origin.advance read

/-- A place in a buffer with the bytes after it. -/
structure Cursor (buffer : Buffer) where
  position : Position
  rest : List UInt8
  reached : buffer.Reaches position rest

namespace Cursor

variable {buffer : Buffer}

def start (buffer : Buffer) : Cursor buffer := ⟨.origin, buffer.text, [], rfl, rfl⟩

def remaining (c : Cursor buffer) : Nat := c.rest.length

/-- Reads `n` bytes, or all that remain when there are fewer. -/
def advance (c : Cursor buffer) (n : Nat) : Cursor buffer where
  position := c.position.advance (c.rest.take n)
  rest := c.rest.drop n
  reached := by
    obtain ⟨read, text, position⟩ := c.reached
    refine ⟨read ++ c.rest.take n, ?_, ?_⟩
    · rw [List.append_assoc, List.take_append_drop, text]
    · rw [Position.advance_append, ← position]

@[simp] theorem rest_start : (start buffer).rest = buffer.text := rfl

@[simp] theorem remaining_start : (start buffer).remaining = buffer.text.length := rfl

/-- Reading drops bytes from what remains, and no more than there are. -/
@[simp] theorem rest_advance (c : Cursor buffer) (n : Nat) :
    (c.advance n).rest = c.rest.drop n := rfl

@[simp] theorem remaining_advance (c : Cursor buffer) (n : Nat) :
    (c.advance n).remaining = c.remaining - n := by simp [remaining]

theorem remaining_advance_le (c : Cursor buffer) (n : Nat) :
    (c.advance n).remaining ≤ c.remaining := by simp

/-- Reading at least one byte where one remains is progress. -/
theorem remaining_advance_lt {c : Cursor buffer} {n : Nat} (some : 0 < n)
    (left : c.rest ≠ []) : (c.advance n).remaining < c.remaining := by
  have := List.length_pos_iff.mpr left
  rw [remaining_advance]
  simp only [remaining]; omega

def atEnd (c : Cursor buffer) : Bool := c.rest.isEmpty

def peek? (c : Cursor buffer) (ahead : Nat) : Option UInt8 := c.rest[ahead]?

def beginsWith (c : Cursor buffer) (bytes : List UInt8) : Bool := bytes.isPrefixOf c.rest

/-- The bytes some places ahead begin with the given ones; past the end not even no bytes do. -/
def beginsWithAt (c : Cursor buffer) (ahead : Nat) (bytes : List UInt8) : Bool :=
  ahead ≤ c.remaining && bytes.isPrefixOf (c.rest.drop ahead)

/-- How many spaces and tabs stand some places ahead. -/
def lineBlanksAt (c : Cursor buffer) (ahead : Nat) : Nat :=
  ((c.rest.drop ahead).takeWhile Text.isLineBlank).length

def run (c : Cursor buffer) (p : UInt8 → Bool) : List UInt8 := c.rest.takeWhile p

def skip (c : Cursor buffer) (p : UInt8 → Bool) : Cursor buffer :=
  c.advance (c.run p).length

def skipBlanks (c : Cursor buffer) : Cursor buffer := c.skip Text.isAsciiBlank

theorem remaining_skip_le (c : Cursor buffer) (p : UInt8 → Bool) :
    (c.skip p).remaining ≤ c.remaining := remaining_advance_le c _

theorem remaining_skipBlanks_le (c : Cursor buffer) :
    c.skipBlanks.remaining ≤ c.remaining := remaining_skip_le c _

/-- Reading the bytes of a run that is not empty is progress. -/
theorem remaining_skip_lt {c : Cursor buffer} {p : UInt8 → Bool} (some : c.run p ≠ []) :
    (c.skip p).remaining < c.remaining := by
  have positive := List.length_pos_iff.mpr some
  have bound : (c.run p).length ≤ c.rest.length := (List.takeWhile_sublist p).length_le
  unfold skip
  rw [remaining_advance]
  simp only [remaining]; omega

/-- The stretch from an earlier position to the cursor. -/
def source (c : Cursor buffer) (opened : Position) : Source :=
  ⟨buffer.file, opened.line, opened.column, opened.offset, c.position.offset, buffer.text⟩

def slice (_ : Cursor buffer) (first last : Nat) : List UInt8 :=
  (buffer.text.take last).drop first

end Cursor

end Stencil
