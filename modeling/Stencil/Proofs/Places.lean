import Mathlib.Data.List.DropRight
import Stencil.Proofs.Grammar.Reads

/-! # Where sources lie

A source is exact when its range lies in the text it carries, and its line and column are counted
from what stands in the text before the range. A grammar closes a source at its cursor, from a
position that it came through before; every such source is exact. Nodes tile a stretch of the text
when none of them is empty and each begins where the one before it ends.
-/

namespace Stencil

def lineBreak : UInt8 := 0x0A

/-- The offset just after the last line break of the bytes, zero when there is none. -/
def lineStart (bytes : List UInt8) : Nat := (bytes.rdropWhile (· != lineBreak)).length

theorem lineStart_le (bytes : List UInt8) : lineStart bytes ≤ bytes.length :=
  (List.rdropWhile_prefix _ bytes).length_le

namespace Source

/-- The range lies in the text; the line counts the line breaks in front of it, and the column the
bytes between the last of them and the range. -/
structure Exact (s : Source) : Prop where
  ordered : s.start ≤ s.stop
  inside : s.stop ≤ s.text.length
  line : s.line = (s.text.take s.start).count lineBreak
  column : s.column = s.start - lineStart (s.text.take s.start)

def bytes (s : Source) : List UInt8 := (s.text.take s.stop).drop s.start

end Source

/-! ## Positions -/

/-- A line break begins the next line, and any other byte takes one column. -/
theorem Position.step_eq (p : Position) (b : UInt8) :
    p.step b = if b = lineBreak then ⟨p.offset + 1, p.line + 1, 0⟩
      else ⟨p.offset + 1, p.line, p.column + 1⟩ := rfl

/-- The position after some bytes counts them, their line breaks, and those after the last one. -/
theorem Position.advance_origin (bytes : List UInt8) : origin.advance bytes =
    ⟨bytes.length, bytes.count lineBreak, bytes.length - lineStart bytes⟩ := by
  induction bytes using List.reverseRecOn with
  | nil => rfl
  | append_singleton bytes b ih =>
    rw [advance_append, ih, advance_cons, advance_nil, step_eq, List.count_append,
      List.length_append, List.length_singleton]
    have within := lineStart_le bytes
    split
    · rename_i ends
      have last : lineStart (bytes ++ [b]) = bytes.length + 1 := by
        rw [lineStart, List.rdropWhile_concat_neg _ _ _ (by simp [ends]), List.length_append]
        rfl
      rw [last, ends, List.count_singleton_self, Nat.sub_self]
    · rename_i goesOn
      have last : lineStart (bytes ++ [b]) = lineStart bytes := by
        rw [lineStart, List.rdropWhile_concat_pos _ _ _ (by simpa using goesOn)]
        rfl
      rw [last, List.count_singleton, if_neg (by simpa using goesOn), Nat.sub_add_comm within]
      rfl

namespace Cursor

variable {buffer : Buffer} {c next : Cursor buffer} {p : Position}

/-- The reading came through the position on its way to the cursor. -/
def Passed (c : Cursor buffer) (p : Position) : Prop :=
  ∃ earlier : Cursor buffer, earlier.position = p ∧ c.remaining ≤ earlier.remaining

theorem passed_self (c : Cursor buffer) : c.Passed c.position := ⟨c, rfl, Nat.le_refl _⟩

/-- A cursor further on has passed what this one has. -/
theorem Passed.later (passed : c.Passed p) (left : next.remaining ≤ c.remaining) :
    next.Passed p := by
  obtain ⟨earlier, place, after⟩ := passed
  exact ⟨earlier, place, Nat.le_trans left after⟩

theorem Passed.offset_le (passed : c.Passed p) : p.offset ≤ c.position.offset := by
  obtain ⟨earlier, rfl, after⟩ := passed
  exact Cursor.offset_le after

/-- The text is split at the offset of a cursor. -/
theorem split_offset (c : Cursor buffer) :
    c.position = Position.origin.advance (buffer.text.take c.position.offset) ∧
      c.rest = buffer.text.drop c.position.offset := by
  obtain ⟨read, text, position⟩ := c.reached
  have count : c.position.offset = read.length := by
    rw [position, Position.offset_advance]
    exact Nat.zero_add _
  rw [count, text, List.take_left, List.drop_left]
  exact ⟨position, rfl⟩

/-- What is closed at a cursor is exact. -/
theorem Passed.exact (passed : c.Passed p) : (c.source p).Exact := by
  have before := passed.offset_le
  have within : c.position.offset ≤ buffer.text.length := by
    rw [← c.offset_add_remaining]
    exact Nat.le_add_right _ _
  obtain ⟨earlier, rfl, -⟩ := passed
  have counted := earlier.split_offset.1
  rw [Position.advance_origin, List.length_take, Nat.min_eq_left (Nat.le_trans before within)]
    at counted
  exact ⟨before, within, congrArg Position.line counted, congrArg Position.column counted⟩

/-- The next byte of the text is the first that remains. -/
theorem getElem?_offset (c : Cursor buffer) : buffer.text[c.position.offset]? = c.rest.head? := by
  rw [c.split_offset.2, List.head?_drop]

/-- A cursor is known by how much remains behind it. -/
theorem eq_of_remaining (same : c.remaining = next.remaining) : c = next := by
  have offset : c.position.offset = next.position.offset :=
    Nat.le_antisymm (offset_le (Nat.le_of_eq same.symm)) (offset_le (Nat.le_of_eq same))
  have position : c.position = next.position := by
    rw [c.split_offset.1, next.split_offset.1, offset]
  have rest : c.rest = next.rest := by rw [c.split_offset.2, next.split_offset.2, offset]
  cases c
  cases next
  cases position
  cases rest
  rfl

/-- Where nothing remains, the whole text has been read. -/
theorem offset_at_end (c : Cursor buffer) (atEnd : c.rest = []) :
    c.position.offset = buffer.text.length := by
  have count := c.offset_add_remaining
  rwa [remaining, atEnd] at count

/-- Reading as many bytes as there are moves the offset by them. -/
theorem offset_advance {n : Nat} (there : n ≤ c.remaining) :
    (c.advance n).position.offset = c.position.offset + n := by
  have before := c.offset_add_remaining
  have after := (c.advance n).offset_add_remaining
  rw [remaining_advance] at after
  omega

/-- What is closed some bytes further covers those bytes. -/
theorem bytes_source (c : Cursor buffer) (n : Nat) :
    ((c.advance n).source c.position).bytes = c.rest.take n := by
  have count : (c.advance n).position.offset = c.position.offset + (c.rest.take n).length :=
    Position.offset_advance _ _
  change (buffer.text.take (c.advance n).position.offset).drop c.position.offset = c.rest.take n
  rw [List.drop_take, ← c.split_offset.2, count, Nat.add_sub_cancel_left, List.length_take]
  exact List.take_eq_take_min.symm

end Cursor

/-! ## Errors -/

/-- The error is a fault of the template at an exact source. -/
def Error.Placed (why : Error) : Prop := ∃ fault source, why = .parse fault source ∧ source.Exact

/-- A fault at what the reading came through is placed. -/
theorem Grammar.Meets.fault {buffer : Buffer} {limit : Nat} {α : Type} {c : Cursor buffer}
    {opened : Position} {Q : α → Cursor buffer → Prop} (passed : c.Passed opened)
    (why : ParseFault) :
    Meets Error.Placed Q
      (Grammar.fault c opened why : Except Error (Reading buffer limit α)) :=
  ⟨why, _, rfl, passed.exact⟩

/-! ## Nodes -/

/-- The source of the node is exact, and the host has not made it. -/
structure Node.Located (node : Node) : Prop where
  exact : node.source.Exact
  notHost : ∀ source number action, node ≠ .host source number action

/-! ## Tilings -/

/-- None of the nodes is empty, and they lie from one place to another without a gap. -/
inductive Tiled : Nat → List Node → Nat → Prop
  | nil (place : Nat) : Tiled place [] place
  | cons {first last : Nat} {node : Node} {nodes : List Node} (start : node.source.start = first)
      (some : first < node.source.stop) (rest : Tiled node.source.stop nodes last) :
      Tiled first (node :: nodes) last

namespace Tiled

variable {first middle last : Nat} {nodes others : List Node}

theorem le (tiled : Tiled first nodes last) : first ≤ last := by
  induction tiled with
  | nil place => exact Nat.le_refl place
  | cons _ some _ ih => exact Nat.le_trans (Nat.le_of_lt some) ih

end Tiled

end Stencil
