import Stencil.Grammar.Reading

/-! # The mustache grammar

A template is a sequence of pieces: raw text, `{{name}}`, `{{{name}}}`, and the two ends
`{{#name}}` and `{{/name}}` of a section. `piece` reads one; `nodes` builds the tree. A close ends
only the innermost open section and only when it names it; any other close inside a section is
dropped, and outside of all sections it is a fault. Sections still open at the end of the text end
there.
-/

namespace Stencil.Grammar.Mustache

variable {buffer : Buffer}

/-- One piece of a template. The opening of a section keeps the position it starts at. -/
inductive Piece
  | node (node : Node)
  | opening (start : Position) (name : Source) (path : Path)
  | closing (source : Source) (path : Path)

def isNameByte (b : UInt8) : Bool := isLetter b || isDigit b || b == byte '.' || b == byte '_'

def opener : List UInt8 := [byte '\x7b', byte '\x7b']

def closer : List UInt8 := [byte '\x7d', byte '\x7d']

def rawLength : List UInt8 → Nat
  | [] => 0
  | b :: rest => if opener.isPrefixOf (b :: rest) then 0 else rawLength rest + 1

/-- The name of a tag, with blanks around it. -/
def name (c : Cursor buffer) : Except Error (Reading buffer c.remaining (Source × Path)) :=
  let first := c.skipBlanks
  if empty : first.run isNameByte = [] then fault first first.position .noIdentifier
  else
    let last := first.skip isNameByte
    .ok ⟨(last.source first.position, Path.parse (asciiText (first.run isNameByte))),
      last.skipBlanks, Nat.lt_of_le_of_lt last.remaining_skipBlanks_le
        (Nat.lt_of_lt_of_le (Cursor.remaining_skip_lt empty) c.remaining_skipBlanks_le)⟩

/-- A name and the marker that closes its tag, which starts at `start`. -/
def closedName (marker : List UInt8) (start : Position) (c : Cursor buffer) :
    Except Error (Reading buffer c.remaining (Source × Path)) := do
  let ⟨named, next, below⟩ ← name c
  if next.beginsWith marker then
    return ⟨named, next.advance marker.length,
      Nat.lt_of_le_of_lt (next.remaining_advance_le _) below⟩
  else fault next start (.unclosedTag (asciiText marker))

def call (tag : String) (start : Position) (read : Reading buffer limit (Source × Path)) :
    Piece :=
  .node (.tag (read.next.source start) tag [.identifier read.value.1 read.value.2] none)

/-- The tag at the cursor, which stands before an opener. -/
def tag (c : Cursor buffer) : Except Error (Reading buffer c.remaining Piece) := do
  let start := c.position
  let inner := c.advance opener.length
  have inside : inner.remaining ≤ c.remaining := c.remaining_advance_le _
  match inner.rest.head? with
  | none => fault inner start .tagAtEnd
  | some b =>
    let named := inner.advance 1
    have within : named.remaining ≤ c.remaining :=
      Nat.le_trans (inner.remaining_advance_le _) inside
    if b = byte '\x7b' then
      let read ← closedName (byte '\x7d' :: closer) start named
      return (read.map fun _ => call "get" start read).widen within
    else if b = byte '#' then
      let read ← closedName closer start named
      return (read.map fun (source, path) => .opening start source path).widen within
    else if b = byte '/' then
      let read ← closedName closer start named
      return (read.map fun (_, path) => .closing (read.next.source start) path).widen within
    else
      let read ← closedName closer start inner
      return (read.map fun _ => call "" start read).widen inside

/-- The next piece of a text that is not at its end. -/
def piece (c : Cursor buffer) (left : c.rest ≠ []) :
    Except Error (Reading buffer c.remaining Piece) :=
  if ahead : opener.isPrefixOf c.rest then tag c
  else
    let next := c.advance (rawLength c.rest)
    .ok ⟨.node (.raw (next.source c.position) (c.rest.take (rawLength c.rest))), next, by
      obtain ⟨b, rest, cons⟩ := List.exists_cons_of_ne_nil left
      refine Cursor.remaining_advance_lt ?_ left
      rw [cons, rawLength, if_neg (by simpa [cons] using ahead)]
      omega⟩

/-- The nodes up to the close of the section `open?`, or up to the end of the text. -/
def nodes (open? : Option Path) (c : Cursor buffer) :
    Except Error (Reading buffer (c.remaining + 1) (List Node)) :=
  if left : c.rest = [] then .ok ⟨[], c, Nat.lt_succ_self _⟩
  else do
    let ⟨read, next, below⟩ ← piece c left
    have within : next.remaining + 1 ≤ c.remaining + 1 := by omega
    match read with
    | .node node =>
      let others ← nodes open? next
      return (others.map (node :: ·)).widen within
    | .opening start source path =>
      let ⟨body, after, inside⟩ ← nodes (some path) next
      let section' := Node.conditional (after.source start) (.identifier source path) body []
      let others ← nodes open? after
      return (others.map (section' :: ·)).widen (by omega)
    | .closing source path =>
      match open? with
      | none => .error (.parse (.unmatchedClose path) source)
      | some opened =>
        if path = opened then return ⟨[], next, by omega⟩
        else return (← nodes open? next).widen within
termination_by c.remaining

def parse (buffer : Buffer) : Except Error (List Node) := do
  let read ← nodes none (Cursor.start buffer)
  return read.value

end Stencil.Grammar.Mustache
