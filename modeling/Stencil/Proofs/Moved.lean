import Stencil.Proofs.Places

/-! # Trees that are moved

What is read of a part of a template stands further on in the whole of it: by as many bytes and
lines as there are in front of the part, and in the first line of the part by as many columns. What
a string literal holds is counted from the beginning of the literal, and does not move.
-/

namespace Stencil

/-- The position behind a start, of a position that is counted from there. -/
def Position.after (start p : Position) : Position :=
  ⟨start.offset + p.offset, start.line + p.line,
    if p.line = 0 then start.column + p.column else p.column⟩

namespace Position

theorem after_origin (start : Position) : start.after origin = start := rfl

/-- Moving a position and stepping over a byte may change places. -/
theorem step_after (start p : Position) (b : UInt8) :
    (start.after p).step b = start.after (p.step b) := by
  rw [step_eq, step_eq]
  split
  · simp [after, Nat.add_assoc]
  · simp only [after, Position.mk.injEq, Nat.add_assoc, true_and]
    split <;> rfl

/-- Positions are counted from any start as from the origin. -/
theorem advance_eq_after (start : Position) (bytes : List UInt8) :
    start.advance bytes = start.after (origin.advance bytes) := by
  induction bytes using List.reverseRecOn with
  | nil => rfl
  | append_singleton bytes b ih =>
    rw [advance_append, advance_append, ih, advance_cons, advance_cons, advance_nil, advance_nil,
      step_after]

end Position

namespace Source

def place (s : Source) : Position := ⟨s.start, s.line, s.column⟩

/-- What is exact starts at the position that its text leads to. -/
theorem Exact.place_eq {s : Source} (exact : s.Exact) :
    s.place = Position.origin.advance (s.text.take s.start) := by
  have within : s.start ≤ s.text.length := Nat.le_trans exact.ordered exact.inside
  rw [Position.advance_origin, List.length_take, Nat.min_eq_left within, place, exact.line,
    exact.column]

/-- The stretch in a text that goes on at the start with what the stretch was counted in. -/
def moved (start : Position) (text : List UInt8) (s : Source) : Source :=
  ⟨s.file, (start.after s.place).line, (start.after s.place).column, (start.after s.place).offset,
    start.offset + s.stop, text⟩

end Source

namespace Node

variable (start : Position) (text : List UInt8)

mutual

/-- The node with its sources moved, but for what is in string literals. -/
def moved : Node → Node
  | raw s data => raw (s.moved start text) data
  | literal s constant => literal (s.moved start text) constant
  | interpolated s nodes => interpolated (s.moved start text) nodes
  | identifier s path => identifier (s.moved start text) path
  | infixOp s op left right => infixOp (s.moved start text) op left.moved right.moved
  | negation s operand => negation (s.moved start text) operand.moved
  | tag s name parameters none => tag (s.moved start text) name (movedAll parameters) none
  | tag s name parameters (some body) =>
    tag (s.moved start text) name (movedAll parameters) (some (movedAll body))
  | conditional s condition body others =>
    conditional (s.moved start text) condition.moved (movedAll body) (movedBranches others)
  | loop s key data body => loop (s.moved start text) key.moved data.moved (movedAll body)
  | embed s path => embed (s.moved start text) path.moved
  | host s number action => host (s.moved start text) number action

def movedAll : List Node → List Node
  | [] => []
  | node :: rest => node.moved :: movedAll rest

def movedBranches : List (Node × List Node) → List (Node × List Node)
  | [] => []
  | (condition, body) :: rest => (condition.moved, movedAll body) :: movedBranches rest

end

end Node

end Stencil
