import Stencil.Proofs.Grammar.Kit.Branching
import Stencil.Proofs.Grammar.Kit.Lookahead
import Stencil.Proofs.Moved

/-! # A part of a template by itself

A template and a part that is cut out of it are read side by side: what is left of the template is
what is left of the part, and then all that is behind it. As long as the reading of the template
stays in the part, that of the part follows it step by step, since behind a part that ends with a
bracket nothing stands that a look ahead could ask for.
-/

namespace Stencil

/-- The text of a buffer is a part of the text of another one, under one label. -/
structure Excerpt (part whole : Buffer) where
  front : List UInt8
  behind : List UInt8
  text : whole.text = front ++ part.text ++ behind
  file : part.file = whole.file

/-- The bytes of a buffer between two offsets, under its label. -/
def Buffer.cut (buffer : Buffer) (first last : Nat) : Buffer :=
  ⟨buffer.file, (buffer.text.take last).drop first⟩

namespace Excerpt

open Grammar Grammar.Kit

/-- What is cut out of a buffer is an excerpt of it. -/
def ofCut (buffer : Buffer) {first last : Nat} (le : first ≤ last) :
    Excerpt (buffer.cut first last) buffer where
  front := buffer.text.take first
  behind := buffer.text.drop last
  text := by
    have front : buffer.text.take first = (buffer.text.take last).take first := by
      rw [List.take_take, Nat.min_eq_left le]
    rw [front]
    exact (List.take_append_drop last buffer.text).symm.trans
      (congrArg (· ++ buffer.text.drop last) (List.take_append_drop first _).symm)
  file := rfl

variable {part whole : Buffer} (excerpt : Excerpt part whole)

def start : Position := Position.origin.advance excerpt.front

/-- A node of the part as a node of the whole. -/
def move : Node → Node := Node.moved excerpt.start whole.text

def moveAll : List Node → List Node := Node.movedAll excerpt.start whole.text

/-- Branches of the part as branches of the whole. -/
def moveBranches : List (Node × List Node) → List (Node × List Node) :=
  Node.movedBranches excerpt.start whole.text

def moveSource : Source → Source := Source.moved excerpt.start whole.text

variable {excerpt} {c next : Cursor part} {c' next' : Cursor whole}

/-! ## Positions -/

/-- The place of a cursor in the whole is its place in the part, moved. -/
theorem position_of_rest (rest : c'.rest = c.rest ++ excerpt.behind) :
    c'.position = excerpt.start.after c.position := by
  obtain ⟨read, text, position⟩ := c.reached
  obtain ⟨read', text', position'⟩ := c'.reached
  have same : excerpt.front ++ read = read' := by
    refine (List.append_left_inj c'.rest).mp ?_
    rw [← text', excerpt.text, text, rest]
    simp only [List.append_assoc]
  rw [position, position', ← same, Position.advance_append, start, Position.advance_eq_after]

theorem source_of_rest (rest : c'.rest = c.rest ++ excerpt.behind) (p : Position) :
    c'.source (excerpt.start.after p) = excerpt.moveSource (c.source p) := by
  have stop := congrArg Position.offset (position_of_rest rest)
  rw [Cursor.source, stop, ← excerpt.file]
  rfl

/-! ## Cursors side by side -/

variable (excerpt) in
/-- The cursors stand at one place, and a bracket ends what is left of the part. -/
structure Abreast (c : Cursor part) (c' : Cursor whole) : Prop where
  rest : c'.rest = c.rest ++ excerpt.behind
  shut : c.rest ≠ [] → Shut c.rest

namespace Abreast

variable (abreast : excerpt.Abreast c c')

include abreast

theorem position : c'.position = excerpt.start.after c.position := position_of_rest abreast.rest

theorem source (p : Position) :
    c'.source (excerpt.start.after p) = excerpt.moveSource (c.source p) :=
  source_of_rest abreast.rest p

theorem remaining : c'.remaining = c.remaining + excerpt.behind.length := by
  rw [Cursor.remaining, abreast.rest, List.length_append]
  rfl

/-- The reading of the whole goes on in the part. -/
theorem inside (within : excerpt.behind.length < c'.remaining) : Shut c.rest := by
  refine abreast.shut fun empty => ?_
  rw [Cursor.remaining, abreast.rest, empty] at within
  exact absurd within (Nat.lt_irrefl _)

/-- Both cursors go on by as many bytes. -/
theorem advance {n : Nat} (within : excerpt.behind.length ≤ (c'.advance n).remaining) :
    excerpt.Abreast (c.advance n) (c'.advance n) where
  rest := by
    have kept : excerpt.behind.drop (n - c.rest.length) = excerpt.behind := by
      rw [Cursor.remaining_advance, abreast.remaining, Cursor.remaining] at within
      cases behind : excerpt.behind with
      | nil => exact List.drop_nil
      | cons b more =>
        rw [behind, List.length_cons] at within
        have none : n - c.rest.length = 0 := by omega
        rw [none, List.drop_zero]
    rw [Cursor.rest_advance, Cursor.rest_advance, abreast.rest, List.drop_append, kept]
  shut left := by
    rw [Cursor.rest_advance] at left ⊢
    have filled : c.rest ≠ [] := fun empty => left (by rw [empty, List.drop_nil])
    have shut := abreast.shut filled
    rw [← List.take_append_drop n c.rest] at shut
    exact shut.of_append left

theorem take {n : Nat} (within : excerpt.behind.length ≤ (c'.advance n).remaining) :
    c'.rest.take n = c.rest.take n := by
  have rest := (abreast.advance within).rest
  rw [Cursor.rest_advance, Cursor.rest_advance] at rest
  refine (List.append_left_inj (c'.rest.drop n)).mp ?_
  rw [List.take_append_drop, rest, ← List.append_assoc, List.take_append_drop, abreast.rest]

/-- A run of bytes that are no brackets is the same in both. -/
theorem run {p : UInt8 → Bool} (apart : ∀ b, Closes b → p b = false)
    (within : excerpt.behind.length ≤ (c'.skip p).remaining) : c'.run p = c.run p := by
  by_cases empty : c.rest = []
  · have length := abreast.remaining
    have atEnd : c.remaining = 0 := List.length_eq_zero_iff.mpr empty
    have covered : (c'.run p).length ≤ c'.remaining := (List.takeWhile_sublist p).length_le
    rw [Cursor.skip, Cursor.remaining_advance] at within
    have none : (c'.run p).length = 0 := by omega
    rw [List.length_eq_zero_iff.mp none, Cursor.run, empty]
    rfl
  · rw [Cursor.run, abreast.rest, (abreast.shut empty).takeWhile_append apart]
    rfl

theorem skip {p : UInt8 → Bool} (apart : ∀ b, Closes b → p b = false)
    (within : excerpt.behind.length ≤ (c'.skip p).remaining) :
    excerpt.Abreast (c.skip p) (c'.skip p) := by
  have same := abreast.run apart within
  unfold Cursor.skip at within ⊢
  rw [same] at within ⊢
  exact abreast.advance within

/-- What was read is the same stretch, moved. -/
theorem stretch (later : excerpt.Abreast next next') :
    next'.source c'.position = excerpt.moveSource (next.source c.position) := by
  rw [abreast.position, later.source]

theorem blanks (within : excerpt.behind.length ≤ (blanks c').next.remaining) :
    excerpt.Abreast (Kit.blanks c).next (Kit.blanks c').next :=
  abreast.skip Closes.not_isAsciiBlank within

theorem runs {p : UInt8 → Bool} (apart : ∀ b, Closes b → p b = false)
    (within : excerpt.behind.length ≤ (Kit.run p c').next.remaining) :
    excerpt.Abreast (Kit.run p c).next (Kit.run p c').next ∧
      (Kit.run p c').value = (Kit.run p c).value :=
  ⟨abreast.skip apart within, abreast.run apart within⟩

theorem bytes {n : Nat} (within : excerpt.behind.length ≤ (Kit.skip n c').next.remaining) :
    excerpt.Abreast (Kit.skip n c).next (Kit.skip n c').next := abreast.advance within

theorem pop {left : c.rest ≠ []} {left' : c'.rest ≠ []}
    (within : excerpt.behind.length ≤ (pop c' left').next.remaining) :
    excerpt.Abreast (Kit.pop c left).next (Kit.pop c' left').next := abreast.advance within

/-- The name of a tag is read in the part, where more is left behind it. -/
theorem tagName {left' : c'.rest ≠ []} (left : c.rest ≠ [])
    (print : ¬ (Kit.pop c' left').next.rest.head? = some (byte '('))
    (inside : excerpt.behind.length < (Kit.run isNameByte (Kit.pop c' left').next).next.remaining) :
    ¬ (Kit.pop c left).next.rest.head? = some (byte '(') ∧
      excerpt.Abreast (Kit.run isNameByte (Kit.pop c left).next).next
        (Kit.run isNameByte (Kit.pop c' left').next).next ∧
      (Kit.run isNameByte (Kit.pop c' left').next).value =
        (Kit.run isNameByte (Kit.pop c left).next).value := by
  have after := (Kit.run isNameByte (Kit.pop c' left').next).below
  have hash : excerpt.Abreast (Kit.pop c left).next (Kit.pop c' left').next :=
    abreast.pop (by omega)
  rw [hash.rest, (hash.inside (by omega)).head?_append] at print
  exact ⟨print, hash.runs Closes.not_isNameByte (Nat.le_of_lt inside)⟩

end Abreast

variable (excerpt) in
/-- Whenever the rule reads the whole and spares so many bytes of the part, it reads the part too:
up to the same place, and to a value that is the other one when it is moved there. -/
def Echoes {α : Type} {limit limit' : Nat} (spare : Nat) (place : α → α)
    (result' : Except Error (Reading whole limit' α))
    (result : Except Error (Reading part limit α)) : Prop :=
  ∀ r', result' = .ok r' → excerpt.behind.length + spare ≤ r'.next.remaining →
    Reads result fun value next => excerpt.Abreast next r'.next ∧ r'.value = place value

/-! ## Tokens -/

theorem skip_one_lt {buffer : Buffer} {c : Cursor buffer} {b : UInt8}
    (there : c.rest.head? = some b) : (skip 1 c).next.remaining < c.remaining :=
  Cursor.remaining_advance_lt Nat.one_pos (by intro empty; simp [empty] at there)

/-- The node of a word moves with its source. -/
theorem wordNode_move {source : Source} (word : String) :
    wordNode (excerpt.moveSource source) word = excerpt.move (wordNode source word) := by
  unfold wordNode
  split
  · rfl
  split
  · rfl
  · rfl

section Tokens

variable {c : Cursor part} {c' : Cursor whole} (abreast : excerpt.Abreast c c')

include abreast

theorem expect_echoes (b : UInt8) (why : ParseFault) :
    excerpt.Echoes 0 id (expect b why c') (expect b why c) := by
  intro r' read within
  have shut := abreast.inside (Nat.lt_of_le_of_lt within r'.below)
  unfold expect at read
  split at read
  · rename_i there
    cases read
    rw [abreast.rest, shut.head?_append] at there
    rw [expect, dif_pos there]
    exact .of_ok ⟨abreast.advance within, rfl⟩
  · cases read

theorem number_echoes (left' : c'.rest ≠ []) (left : c.rest ≠ []) :
    excerpt.Echoes 1 excerpt.move (number c' left') (number c left) := by
  have length := (abreast.shut left).numberLength_append excerpt.behind
  rw [← abreast.rest] at length
  intro r' read within
  unfold number at read ⊢
  rw [length] at read
  generalize numberLength c.rest = parts at read ⊢
  obtain ⟨length, isFloat⟩ := parts
  dsimp only at read ⊢
  split at read
  · rename_i constant written
    cases read
    dsimp only at within
    have all : excerpt.behind.length ≤ (c'.advance length).remaining := by
      rw [Cursor.remaining_advance] at within ⊢
      omega
    have later := abreast.advance (Nat.le_of_succ_le within)
    rw [abreast.take all] at written
    simp only [written]
    exact .of_ok ⟨later, congrArg (Node.literal · constant) (abreast.stretch later)⟩
  · cases read

/-- A word is the same in the part and in the whole. -/
theorem wordBytes_abreast (left' : c'.rest ≠ []) (left : c.rest ≠ [])
    (within : excerpt.behind.length ≤ (wordBytes c' left').next.remaining) :
    excerpt.Abreast (wordBytes c left).next (wordBytes c' left').next ∧
      (wordBytes c' left').value = (wordBytes c left).value := by
  unfold wordBytes at within ⊢
  dsimp only at within ⊢
  have first : excerpt.Abreast (c.advance 1) (c'.advance 1) := by
    refine abreast.advance ?_
    rw [Cursor.remaining_advance] at within ⊢
    omega
  have run : (c'.advance 1).run isWordByte = (c.advance 1).run isWordByte := by
    refine first.run Closes.not_isWordByte ?_
    rw [Cursor.skip, Cursor.remaining_advance, Cursor.run, Cursor.rest_advance, List.drop_one,
      Cursor.remaining_advance]
    rw [Cursor.remaining_advance] at within
    omega
  simp only [Cursor.run, Cursor.rest_advance, List.drop_one] at run
  rw [run] at within ⊢
  exact ⟨abreast.advance within, abreast.take within⟩

/-- A string literal has the same contents in the part, and ends in the same place. -/
theorem stringLiteral_abreast (left' : c'.rest ≠ []) (left : c.rest ≠ [])
    {literal' : StringLiteral whole c'.remaining} (read : stringLiteral c' left' = .ok literal')
    (within : excerpt.behind.length ≤ literal'.next.remaining) :
    ∃ literal, stringLiteral c left = .ok literal ∧ literal.text = literal'.text ∧
      literal.template = literal'.template ∧ excerpt.Abreast literal.next literal'.next := by
  unfold stringLiteral at read
  dsimp only at read
  split at read
  · cases read
  rename_i quoted contents
  split at read
  · cases read
  rename_i text decoded
  cases read
  dsimp only at within
  have first : excerpt.Abreast (c.advance 1) (c'.advance 1) :=
    abreast.advance (Nat.le_trans within ((c'.advance 1).remaining_advance_le _))
  have covered : quoted.length ≤ (c.advance 1).rest.length := by
    have all := (template_length_lt contents).2
    have length := first.remaining
    rw [Cursor.remaining_advance, length] at within
    rw [first.rest, List.length_append] at all
    change quoted.length ≤ (c.advance 1).remaining
    change _ ≤ (c.advance 1).remaining + _ at all
    omega
  rw [first.rest] at contents
  have contents := readQuoted_of_append contents covered
  unfold stringLiteral
  dsimp only
  split
  · rename_i failed
    rw [contents] at failed
    cases failed
  rename_i quoted' contents'
  rw [contents] at contents'
  cases contents'
  split
  · rename_i undecoded
    rw [decoded] at undecoded
    cases undecoded
  rename_i text' decoded'
  rw [decoded] at decoded'
  cases decoded'
  exact ⟨_, rfl, rfl, rfl, first.advance within⟩

theorem string_echoes (left' : c'.rest ≠ []) (left : c.rest ≠ []) :
    excerpt.Echoes 0 excerpt.move (string c' left') (string c left) := by
  rintro ⟨value', last', _⟩ read within
  unfold string at read ⊢
  obtain ⟨literal', opened, read⟩ := exists_of_bind read
  obtain ⟨text, template, next', below⟩ := literal'
  dsimp only at read
  have kept : next' = last' := by
    split at read
    · obtain ⟨parts, _, read⟩ := exists_of_bind read
      cases read
      rfl
    · cases read
      rfl
  subst kept
  obtain ⟨⟨text, template, next, below⟩, closed, same, same', later⟩ :=
    stringLiteral_abreast abreast left' left opened within
  dsimp only at same same' later
  subst same same'
  have stretch := abreast.stretch later
  rw [closed]
  change Reads (if _ then _ else _) _
  split at read
  · rename_i hash
    rw [if_pos hash]
    obtain ⟨parts, inner, read⟩ := exists_of_bind read
    cases read
    have again : Reads (nodes none (Cursor.start ⟨part.file, template⟩)) fun values _ =>
        values = parts.value := by
      rw [excerpt.file]
      exact ⟨parts, inner, rfl⟩
    refine again.bind ?_
    rintro ⟨_, _, _⟩ rfl
    refine .of_ok ⟨later, ?_⟩
    dsimp only
    split
    · exact congrArg (Node.literal · _) stretch
    · exact congrArg (Node.interpolated · _) stretch
  · rename_i plain
    rw [if_neg plain]
    cases read
    exact .of_ok ⟨later, congrArg (Node.literal · _) stretch⟩

theorem escaped_echoes (left' : c'.rest ≠ []) (left : c.rest ≠ []) :
    excerpt.Echoes 0 excerpt.move (.ok (escaped c' left')) (.ok (escaped c left)) := by
  rintro _ ⟨⟩ within
  have later : excerpt.Abreast (escaped c left).next (escaped c' left').next :=
    abreast.advance within
  exact .of_ok ⟨later, congrArg (Node.raw · _) (abreast.stretch later)⟩

theorem rawText_echoes (inBody : Bool) (left' : c'.rest ≠ []) (left : c.rest ≠ []) :
    excerpt.Echoes 0 excerpt.move (.ok (rawText inBody c' left'))
      (.ok (rawText inBody c left)) := by
  rintro _ ⟨⟩ within
  simp only [rawText] at within
  have length : rawLength inBody c'.rest.tail = rawLength inBody c.rest.tail := by
    obtain ⟨b, more, there⟩ := List.exists_cons_of_ne_nil left
    have shut := abreast.shut left
    have count := abreast.remaining
    rw [Cursor.remaining_advance, count, Cursor.remaining, there, List.length_cons] at within
    rw [there] at shut
    rw [abreast.rest, there, List.cons_append, List.tail_cons, List.tail_cons]
    rw [abreast.rest, there, List.cons_append, List.tail_cons] at within
    cases behind : excerpt.behind with
    | nil => rw [List.append_nil]
    | cons b' behind' =>
      rw [behind, List.length_cons] at within
      exact rawLength_of_append _ (@Shut.of_append _ [b] shut) (by omega)
  rw [length] at within
  have later := abreast.advance within
  refine .of_ok ?_
  simp only [rawText, length]
  refine ⟨later, ?_⟩
  rw [abreast.stretch later, abreast.take within]
  rfl

end Tokens

end Excerpt

end Stencil
