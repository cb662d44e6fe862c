import Stencil.Error

/-! # Quoting the template in a diagnostic

A diagnostic adds to an error a code, perhaps an advice, and a label on the stretch of template it
points at. A snippet is that stretch with some lines around it; it is found in one pass over the
bytes of the template, where a carriage return and a line feed together end one line.
-/

namespace Stencil

/-- A part of a template around a label: the line and column it starts at, how many line ends were
passed, and its range of bytes. -/
structure Snippet where
  name : String
  data : List UInt8
  line : Nat
  column : Nat
  lineCount : Nat
  offset : Nat
  deriving DecidableEq, Repr

namespace Snippet

/-- What is looked for: a stretch of bytes, with how many lines before and after it. -/
structure Request where
  start : Nat
  length : Nat
  before : Nat
  after : Nat

/-- The last byte of the stretch, or its start when it is empty. -/
def Request.last (r : Request) : Nat := r.start + (r.length - 1)

/-- The last byte of the stretch, or the one before its start when it is empty. -/
def Request.finish (r : Request) : Nat := r.start + r.length - 1

/-- What one pass knows: the place reached, the lines counted, where the last lines before the
stretch begin, and how many lines have ended after it. -/
structure Scan where
  offset : Nat
  lineCount : Nat
  startLine : Nat
  startColumn : Nat
  starts : List Nat
  lineStart : Nat
  endLines : Nat
  past : Bool
  sawEnd : Bool

def Scan.begin : Scan := ⟨0, 0, 0, 0, [], 0, 0, false, false⟩

/-- A line that ends before the stretch. -/
def Scan.lineBefore (s : Scan) (r : Request) : Scan :=
  let starts := s.starts ++ [s.lineStart]
  if starts.length > r.before then
    { s with startColumn := 0, starts := starts.tail, startLine := s.startLine + 1 }
  else { s with startColumn := 0, starts }

/-- A line that ends at the end of the stretch or after it. -/
def Scan.lineAfter (s : Scan) : Scan :=
  if s.past then
    if s.sawEnd then { s with startColumn := 0, endLines := s.endLines + 1 }
    else { s with startColumn := 0, sawEnd := true }
  else s

/-- What every byte does last: a pass that has seen enough lines after the stretch stops. -/
def Scan.next (s : Scan) (r : Request) : Scan × Bool :=
  let s := if r.finish ≤ s.offset then { s with past := true } else s
  ({ s with offset := s.offset + 1 }, decide (r.finish ≤ s.offset ∧ s.endLines ≥ r.after))

/-- The end of a line, whose last byte is the current one. -/
def Scan.lineEnd (s : Scan) (r : Request) : Scan × Bool :=
  let s := { s with lineCount := s.lineCount + 1 }
  if s.offset < r.start then
    let s := s.lineBefore r
    { s with lineStart := s.offset + 1 }.next r
  else if r.last ≤ s.offset then
    let counted := s.lineAfter
    if s.past ∧ counted.endLines ≥ r.after then
      ({ counted with offset := s.offset + 1 }, true)
    else { counted with lineStart := s.offset + 1 }.next r
  else { s with lineStart := s.offset + 1 }.next r

def Scan.run (r : Request) : List UInt8 → Scan → Scan
  | [], s => s
  | 0x0D :: 0x0A :: rest, s =>
    let (s, stop) := { s with offset := s.offset + 1 }.lineEnd r
    if stop then s else Scan.run r rest s
  | b :: rest, s =>
    let (s, stop) :=
      if b = 0x0D ∨ b = 0x0A then s.lineEnd r
      else if s.offset < r.start then { s with startColumn := s.startColumn + 1 }.next r
      else s.next r
    if stop then s else Scan.run r rest s

/-- The snippet of a source, none when its stretch lies beyond the text. -/
def of? (source : Source) (before after : Nat) : Option Snippet :=
  let r : Request := ⟨source.start, source.length, before, after⟩
  let s := Scan.run r source.text .begin
  if r.finish ≤ s.offset then
    let first := s.starts.headD (if before = 0 then r.start else 0)
    some ⟨source.file, (source.text.take s.offset).drop first, s.startLine,
      if before = 0 then s.startColumn else 0, s.lineCount, first⟩
  else none

end Snippet

namespace Error

def code : Error → String
  | parse .. => "templatekit::parse"
  | serialize .. => "templatekit::serialize"
  | missingTag .. => "templatekit::missing_tag"
  | tag .. => "templatekit::tag"
  | load .. => "templatekit::load"
  | encode _ => "templatekit::encode"

/-- The advice that goes with an error. -/
def help? : Error → Option String
  | missingTag name _ =>
    some ("Register a handler for `" ++ name ++ "` in the renderer's tag registry")
  | _ => none

/-- The stretch an error can quote: the one it points at, when its text is known. -/
def quotable? (e : Error) : Option Source := e.source?.filter Source.hasText

def labelText : Error → String
  | parse .. => "here"
  | missingTag .. => "unknown tag"
  | tag .. => "rejected here"
  | _ => "while evaluating this"

/-- The labels of an error: a text on a stretch of the template. -/
def labels (e : Error) : List (String × Source) :=
  (e.quotable?.map fun source => (e.labelText, source)).toList

end Error

end Stencil
