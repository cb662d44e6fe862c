import Stencil.Grammar.Kit
import Stencil.Proofs.Parts
import Stencil.Proofs.Places

/-! # How kit nodes lie in their template

A node lies in its template with everything in it: its parts lie in its own range, and a body fills
what is between its braces. A string literal with syntax of its own is filled by its nodes in the
same way, in the text that its contents stand for.
-/

namespace Stencil

/-- The source is exact, and its range lies in the text between two places. -/
structure Source.Lies (text : List UInt8) (first last : Nat) (s : Source) : Prop where
  there : s.text = text
  counted : s.Exact
  after : first ≤ s.start
  before : s.stop ≤ last

theorem Source.Lies.widen {text : List UInt8} {first last first' last' : Nat} {s : Source}
    (place : s.Lies text first last) (before : first' ≤ first) (after : last ≤ last') :
    s.Lies text first' last' :=
  ⟨place.there, place.counted, Nat.le_trans before place.after, Nat.le_trans place.before after⟩

namespace Grammar.Kit

def escapedHash : List UInt8 := [byte '\\', byte '#']

/-- What the raw text in a range stands for: itself, but for an escaped hash. -/
def rawData (bytes : List UInt8) : List UInt8 := if bytes = escapedHash then [byte '#'] else bytes

/-- Between two places stand braces, and the nodes of a body tile what is between the braces. -/
def Braced (text : List UInt8) (first last : Nat) (body : List Node) : Prop :=
  ∃ opening closing, first ≤ opening ∧ closing < last ∧ text[opening]? = some (byte '\x7b') ∧
    text[closing]? = some (byte '\x7d') ∧ Tiled (opening + 1) body closing

theorem Braced.widen {text : List UInt8} {first last first' last' : Nat} {body : List Node}
    (braced : Braced text first last body) (before : first' ≤ first) (after : last ≤ last') :
    Braced text first' last' body := by
  obtain ⟨opening, closing, low, high, braces⟩ := braced
  exact ⟨opening, closing, Nat.le_trans before low, Nat.lt_of_lt_of_le high after, braces⟩

/-- The node lies in the text between two places, and everything in it lies in its range. -/
inductive Laid : List UInt8 → Nat → Nat → Node → Prop
  | raw {text : List UInt8} {first last : Nat} {source : Source}
      (place : source.Lies text first last) :
      Laid text first last (.raw source (rawData source.bytes))
  | literal {text : List UInt8} {first last : Nat} {source : Source}
      (place : source.Lies text first last) (constant : Literal) :
      Laid text first last (.literal source constant)
  | interpolated {text : List UInt8} {first last : Nat} {source : Source} {nodes : List Node}
      {quoted : Quoted} (place : source.Lies text first last)
      (contents : readQuoted (text.drop (source.start + 1)) = .ok quoted)
      (length : source.stop = source.start + 1 + quoted.length)
      (tiled : Tiled 0 nodes quoted.template.length)
      (each : ∀ node ∈ nodes, Laid quoted.template 0 quoted.template.length node) :
      Laid text first last (.interpolated source nodes)
  | identifier {text : List UInt8} {first last : Nat} {source : Source}
      (place : source.Lies text first last) (path : Path) :
      Laid text first last (.identifier source path)
  | infixOp {text : List UInt8} {first last : Nat} {source : Source} {left right : Node}
      (place : source.Lies text first last) (op : InfixOp)
      (one : Laid text source.start source.stop left)
      (other : Laid text source.start source.stop right) :
      Laid text first last (.infixOp source op left right)
  | negation {text : List UInt8} {first last : Nat} {source : Source} {operand : Node}
      (place : source.Lies text first last) (inside : Laid text source.start source.stop operand) :
      Laid text first last (.negation source operand)
  | tag {text : List UInt8} {first last : Nat} {source : Source} {parameters : List Node}
      (place : source.Lies text first last) (name : String)
      (given : ∀ node ∈ parameters, Laid text source.start source.stop node) :
      Laid text first last (.tag source name parameters none)
  | tagWithBody {text : List UInt8} {first last : Nat} {source : Source}
      {parameters body : List Node} (place : source.Lies text first last) (name : String)
      (given : ∀ node ∈ parameters, Laid text source.start source.stop node)
      (braced : Braced text source.start source.stop body)
      (block : ∀ node ∈ body, Laid text source.start source.stop node) :
      Laid text first last (.tag source name parameters (some body))
  | conditional {text : List UInt8} {first last : Nat} {source : Source} {condition : Node}
      {body : List Node} {others : List (Node × List Node)} (place : source.Lies text first last)
      (tested : Laid text source.start source.stop condition)
      (braced : Braced text source.start source.stop body)
      (block : ∀ node ∈ body, Laid text source.start source.stop node)
      (testedOthers : ∀ branch ∈ others, Laid text source.start source.stop branch.1)
      (bracedOthers : ∀ branch ∈ others, Braced text source.start source.stop branch.2)
      (blocks : ∀ branch ∈ others, ∀ node ∈ branch.2, Laid text source.start source.stop node) :
      Laid text first last (.conditional source condition body others)
  | loop {text : List UInt8} {first last : Nat} {source : Source} {key data : Node}
      {body : List Node} (place : source.Lies text first last)
      (named : Laid text source.start source.stop key)
      (ranged : Laid text source.start source.stop data)
      (braced : Braced text source.start source.stop body)
      (block : ∀ node ∈ body, Laid text source.start source.stop node) :
      Laid text first last (.loop source key data body)
  | embed {text : List UInt8} {first last : Nat} {source : Source} {path : Node}
      (place : source.Lies text first last) (inside : Laid text source.start source.stop path) :
      Laid text first last (.embed source path)

namespace Laid

variable {text : List UInt8} {first last first' last' : Nat} {node : Node}

/-- The source of a node lies where the node does. -/
theorem place (laid : Laid text first last node) : node.source.Lies text first last := by
  cases laid <;> assumption

/-- What lies between two places lies between any places further apart. -/
theorem widen (laid : Laid text first last node) (before : first' ≤ first) (after : last ≤ last') :
    Laid text first' last' node := by
  have wide := laid.place.widen before after
  cases laid with
  | raw _ => exact .raw wide
  | literal _ constant => exact .literal wide constant
  | interpolated _ contents length tiled each => exact .interpolated wide contents length tiled each
  | identifier _ path => exact .identifier wide path
  | infixOp _ op one other => exact .infixOp wide op one other
  | negation _ inside => exact .negation wide inside
  | tag _ name given => exact .tag wide name given
  | tagWithBody _ name given braced block => exact .tagWithBody wide name given braced block
  | conditional _ tested braced block testedOthers bracedOthers blocks =>
    exact .conditional wide tested braced block testedOthers bracedOthers blocks
  | loop _ named ranged braced block => exact .loop wide named ranged braced block
  | embed _ inside => exact .embed wide inside

/-- What is in a node lies somewhere as well, perhaps in the text of a string. -/
theorem of_child {child : Node} (laid : Laid text first last node) (inside : node.Child child) :
    ∃ text' first' last', Laid text' first' last' child := by
  cases inside with
  | interpolated member =>
    cases laid with
    | interpolated _ _ _ _ each => exact ⟨_, _, _, each _ member⟩
  | left =>
    cases laid with
    | infixOp _ _ one _ => exact ⟨_, _, _, one⟩
  | right =>
    cases laid with
    | infixOp _ _ _ other => exact ⟨_, _, _, other⟩
  | operand =>
    cases laid with
    | negation _ inside => exact ⟨_, _, _, inside⟩
  | parameter member =>
    cases laid with
    | tag _ _ given => exact ⟨_, _, _, given _ member⟩
    | tagWithBody _ _ given _ _ => exact ⟨_, _, _, given _ member⟩
  | body member =>
    cases laid with
    | tagWithBody _ _ _ _ block => exact ⟨_, _, _, block _ member⟩
  | condition =>
    cases laid with
    | conditional _ tested => exact ⟨_, _, _, tested⟩
  | block member =>
    cases laid with
    | conditional _ _ _ block => exact ⟨_, _, _, block _ member⟩
  | otherCondition among =>
    cases laid with
    | conditional _ _ _ _ testedOthers => exact ⟨_, _, _, testedOthers _ among⟩
  | otherBlock among member =>
    cases laid with
    | conditional _ _ _ _ _ _ blocks => exact ⟨_, _, _, blocks _ among _ member⟩
  | loopKey =>
    cases laid with
    | loop _ named => exact ⟨_, _, _, named⟩
  | loopData =>
    cases laid with
    | loop _ _ ranged => exact ⟨_, _, _, ranged⟩
  | loopBody member =>
    cases laid with
    | loop _ _ _ _ block => exact ⟨_, _, _, block _ member⟩
  | embedPath =>
    cases laid with
    | embed _ inside => exact ⟨_, _, _, inside⟩

/-- Whatever is laid has exact sources, with all that is in it. -/
theorem located (laid : Laid text first last node) : node.Everywhere Node.Located := by
  have everywhere : node.Everywhere fun part => ∃ text first last, Laid text first last part :=
    Node.everywhere_of_child (fun _ _ ⟨_, _, _, laid⟩ => laid.of_child) ⟨_, _, _, laid⟩
  refine everywhere.imp ?_
  rintro part ⟨_, _, _, laid⟩
  refine ⟨laid.place.counted, ?_⟩
  rintro _ _ _ rfl
  cases laid

end Laid

/-- A body with its braces, between two places. -/
structure Block (text : List UInt8) (first last : Nat) (body : List Node) : Prop where
  braced : Braced text first last body
  each : ∀ node ∈ body, Laid text first last node

theorem Block.widen {text : List UInt8} {first last first' last' : Nat} {body : List Node}
    (block : Block text first last body) (before : first' ≤ first) (after : last ≤ last') :
    Block text first' last' body :=
  ⟨block.braced.widen before after, fun node member => (block.each node member).widen before after⟩

structure Branch (text : List UInt8) (first last : Nat) (branch : Node × List Node) : Prop where
  tested : Laid text first last branch.1
  block : Block text first last branch.2

theorem Branch.widen {text : List UInt8} {first last first' last' : Nat}
    {branch : Node × List Node} (laid : Branch text first last branch) (before : first' ≤ first)
    (after : last ≤ last') : Branch text first' last' branch :=
  ⟨laid.tested.widen before after, laid.block.widen before after⟩

end Grammar.Kit

end Stencil
