import Stencil.Text.Quoted

/-! # Places in a template

A buffer is the whole text of one template with a label for where it came from. A position counts
bytes, lines and bytes since the last line break; it moves by single bytes, so the position after
some bytes is a function of those bytes alone. A source is a stretch of a buffer, and carries the
buffer so that a message can quote it.
-/

namespace Stencil

/-- The text of a template under a label. -/
structure Buffer where
  file : String
  text : List UInt8
  deriving DecidableEq, Repr

/-- A place between two bytes of a text; lines and columns count from zero. -/
structure Position where
  offset : Nat
  line : Nat
  column : Nat
  deriving DecidableEq, Repr

namespace Position

def origin : Position := ⟨0, 0, 0⟩

def step (p : Position) (b : UInt8) : Position :=
  if b = 0x0A then ⟨p.offset + 1, p.line + 1, 0⟩ else ⟨p.offset + 1, p.line, p.column + 1⟩

def advance (p : Position) (bytes : List UInt8) : Position := bytes.foldl step p

@[simp] theorem advance_nil (p : Position) : p.advance [] = p := rfl

@[simp] theorem advance_cons (p : Position) (b : UInt8) (bytes : List UInt8) :
    p.advance (b :: bytes) = (p.step b).advance bytes := rfl

theorem advance_append (p : Position) (first second : List UInt8) :
    p.advance (first ++ second) = (p.advance first).advance second := by
  simp [advance]

@[simp] theorem offset_step (p : Position) (b : UInt8) : (p.step b).offset = p.offset + 1 := by
  unfold step; split <;> rfl

@[simp] theorem offset_advance (p : Position) (bytes : List UInt8) :
    (p.advance bytes).offset = p.offset + bytes.length := by
  induction bytes generalizing p with
  | nil => simp
  | cons b rest ih => simp [ih]; omega

end Position

/-- A stretch of a buffer: the line and column it starts at, its range of bytes, and the text the
range counts in; the text is empty when it is not known. -/
structure Source where
  file : String
  line : Nat
  column : Nat
  start : Nat
  stop : Nat
  text : List UInt8
  deriving DecidableEq, Repr

namespace Source

/-- The source of what never came from a text. -/
def detached (file : String) : Source := ⟨file, 0, 0, 0, 0, []⟩

/-- The text is known, so that the stretch can be quoted. -/
def hasText (s : Source) : Bool := !s.text.isEmpty

def length (s : Source) : Nat := s.stop - s.start

def describe (s : Source) : String :=
  s!"{s.file} line: {s.line} column: {s.column} range: {s.start}..{s.stop}"

def debug (s : Source) : String :=
  "TemplateSource \x7b file: " ++ Text.quoted s.file ++ ", line: " ++ toString s.line ++
    ", column: " ++ toString s.column ++ ", range: " ++ toString s.start ++ ".." ++
    toString s.stop ++ ", .. \x7d"

end Source

end Stencil
