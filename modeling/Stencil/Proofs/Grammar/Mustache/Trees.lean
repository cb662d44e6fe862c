import Stencil.Grammar.Mustache
import Stencil.Proofs.Grammar.Reads

/-! # Trees of mustache templates

A template without a triple brace has three kinds of nodes: raw text, tags with no name on one
identifier, and sections. The nodes that print something themselves stand in the tree in the order
of the text, and none begins before the one in front of it has ended.
-/

namespace Stencil

mutual

/-- The nodes of a tree that may print something themselves, in order: all but the conditionals, of
which the bodies do. -/
def Node.printed : Node → List Node
  | .conditional _ _ body others => Node.printedAll body ++ Node.printedBranches others
  | node => [node]

/-- The nodes of trees that may print something themselves. -/
def Node.printedAll : List Node → List Node
  | [] => []
  | node :: rest => node.printed ++ Node.printedAll rest

/-- The nodes of bodies that may print something themselves. -/
def Node.printedBranches : List (Node × List Node) → List Node
  | [] => []
  | (_, body) :: rest => Node.printedAll body ++ Node.printedBranches rest

end

@[simp] theorem Node.printed_raw (source : Source) (data : List UInt8) :
    Node.printed (.raw source data) = [.raw source data] := by
  rw [Node.printed]
  exact nofun

@[simp] theorem Node.printed_tag (source : Source) (name : String) (parameters : List Node)
    (body : Option (List Node)) :
    Node.printed (.tag source name parameters body) = [.tag source name parameters body] := by
  rw [Node.printed]
  exact nofun

/-- A conditional with one body prints what the body does. -/
@[simp] theorem Node.printed_block (source : Source) (condition : Node) (body : List Node) :
    Node.printed (.conditional source condition body []) = Node.printedAll body := by
  rw [Node.printed, Node.printedBranches, List.append_nil]

/-- The nodes lie between two places of the text, one after the other. -/
structure Node.Within (first last : Nat) (nodes : List Node) : Prop where
  bounds : ∀ node ∈ nodes, first ≤ node.source.start ∧ node.source.stop ≤ last
  ordered : nodes.Pairwise fun a b => a.source.stop ≤ b.source.start

namespace Node.Within

variable {first middle last : Nat} {nodes others : List Node}

theorem nil : Within first last [] := ⟨nofun, .nil⟩

theorem single {node : Node} (start : first ≤ node.source.start)
    (stop : node.source.stop ≤ last) : Within first last [node] :=
  ⟨List.forall_mem_singleton.mpr ⟨start, stop⟩, List.pairwise_singleton _ _⟩

theorem append (left : Within first middle nodes) (right : Within middle last others)
    (before : first ≤ middle) (after : middle ≤ last) : Within first last (nodes ++ others) where
  bounds := by
    rw [List.forall_mem_append]
    constructor
    · intro node member
      exact ⟨(left.bounds node member).1, Nat.le_trans (left.bounds node member).2 after⟩
    · intro node member
      exact ⟨Nat.le_trans before (right.bounds node member).1, (right.bounds node member).2⟩
  ordered := by
    rw [List.pairwise_append]
    refine ⟨left.ordered, right.ordered, ?_⟩
    intro a memberA b memberB
    exact Nat.le_trans (left.bounds a memberA).2 (right.bounds b memberB).1

theorem widen (within : Within middle last nodes) (before : first ≤ middle) :
    Within first last nodes := by
  refine ⟨?_, within.ordered⟩
  intro node member
  exact ⟨Nat.le_trans before (within.bounds node member).1, (within.bounds node member).2⟩

end Node.Within

namespace Grammar.Mustache

/-- The bytes that open a tag which is not escaped. -/
def triple : List UInt8 := [byte '\x7b', byte '\x7b', byte '\x7b']

/-- A node of a template that prints nothing unescaped but raw text. -/
inductive Escaping : Node → Prop
  | raw (source : Source) (data : List UInt8) : Escaping (.raw source data)
  | print (source place : Source) (path : Path) :
      Escaping (.tag source "" [.identifier place path] none)
  | block (source place : Source) (path : Path) {body : List Node}
      (each : ∀ node ∈ body, Escaping node) :
      Escaping (.conditional source (.identifier place path) body [])

variable {buffer : Buffer}

/-- What a piece that is a node is, and where it lies. -/
def Tiles (c : Cursor buffer) : Piece → Cursor buffer → Prop
  | .node node, next => Escaping node ∧ node.printed = [node] ∧
      node.source.start = c.position.offset ∧ node.source.stop = next.position.offset
  | _, _ => True

/-- Three braces ahead are three braces in the text. -/
theorem holds_triple {c : Cursor buffer} (ahead : opener.isPrefixOf c.rest)
    (third : (c.rest.drop opener.length).head? = some (byte '\x7b')) :
    triple <:+: buffer.text := by
  obtain ⟨more, rest⟩ := List.isPrefixOf_iff_prefix.mp ahead
  rw [← rest, List.drop_left] at third
  obtain ⟨read, text, _⟩ := c.reached
  obtain ⟨tail, rfl⟩ := List.head?_eq_some_iff.mp third
  refine ⟨read, tail, ?_⟩
  rw [text, ← rest, List.append_assoc]
  rfl

/-- Without three braces in the text a tag is one of those that escape. -/
theorem tag_tiles (plain : ¬ triple <:+: buffer.text) {c : Cursor buffer}
    (ahead : opener.isPrefixOf c.rest) : Ensures (tag c) (Tiles c) := by
  unfold tag
  dsimp only
  split
  · exact .of_error _
  · rename_i b third
    split
    · rename_i brace
      exact absurd (holds_triple ahead (brace ▸ third)) plain
    split
    · exact (Ensures.any _).bind fun _ _ => .of_ok trivial
    split
    · exact (Ensures.any _).bind fun _ _ => .of_ok trivial
    · refine (Ensures.any _).bind fun read _ => ?_
      exact .of_ok ⟨.print _ _ _, Node.printed_tag _ _ _ _, rfl, rfl⟩

theorem piece_tiles (plain : ¬ triple <:+: buffer.text) (c : Cursor buffer) (left : c.rest ≠ []) :
    Ensures (piece c left) (Tiles c) := by
  unfold piece
  split
  · rename_i ahead
    exact tag_tiles plain ahead
  · exact .of_ok ⟨.raw _ _, Node.printed_raw _ _, rfl, rfl⟩

/-- The nodes print nothing unescaped, and lie where they were read, one after the other. -/
structure Escaped (first last : Nat) (nodes : List Node) : Prop where
  escaping : ∀ node ∈ nodes, Escaping node
  within : Node.Within first last (Node.printedAll nodes)

theorem Escaped.cons {first middle last : Nat} {node : Node} {others : List Node}
    (escaping : Escaping node) (within : Node.Within first middle node.printed)
    (rest : Escaped middle last others) (before : first ≤ middle) (after : middle ≤ last) :
    Escaped first last (node :: others) where
  escaping := List.forall_mem_cons.mpr ⟨escaping, rest.escaping⟩
  within := by
    rw [Node.printedAll]
    exact within.append rest.within before after

/-- Without three braces in the text all nodes escape what they print. -/
theorem nodes_escaped (plain : ¬ triple <:+: buffer.text) (open? : Option Path)
    (c : Cursor buffer) : Ensures (nodes open? c) fun nodes next =>
      Escaped c.position.offset next.position.offset nodes := by
  unfold nodes
  split
  · exact .of_ok ⟨nofun, .nil⟩
  · rename_i left
    refine (piece_tiles plain c left).bind ?_
    rintro ⟨read, next, below⟩ tiles
    have before : c.position.offset ≤ next.position.offset := Cursor.offset_le (Nat.le_of_lt below)
    cases read with
    | node node =>
      obtain ⟨escaping, printed, start, stop⟩ := tiles
      have within : Node.Within c.position.offset next.position.offset node.printed := by
        rw [printed]
        exact .single (Nat.le_of_eq start.symm) (Nat.le_of_eq stop)
      refine (nodes_escaped plain open? next).bind fun others rest => .of_ok ?_
      exact .cons escaping within rest before (Cursor.offset_le (Nat.le_of_lt_succ others.below))
    | opening start source path =>
      refine (nodes_escaped plain (some path) next).bind ?_
      rintro ⟨body, after, inside⟩ block
      have middle : next.position.offset ≤ after.position.offset :=
        Cursor.offset_le (Nat.le_of_lt_succ inside)
      refine (nodes_escaped plain open? after).bind fun others rest => .of_ok ?_
      refine .cons (.block _ _ _ block.escaping) ?_ rest (Nat.le_trans before middle)
        (Cursor.offset_le (Nat.le_of_lt_succ others.below))
      rw [Node.printed_block]
      exact block.within.widen before
    | closing source path =>
      cases open? with
      | none => exact .of_error _
      | some opened =>
        dsimp only
        split
        · exact .of_ok ⟨nofun, .nil⟩
        · refine (nodes_escaped plain (some opened) next).bind fun others rest => .of_ok ?_
          exact ⟨rest.escaping, rest.within.widen before⟩
termination_by c.remaining

/-- A template without a triple brace has only nodes that print nothing unescaped but raw text. -/
theorem parse_escaped (plain : ¬ triple <:+: buffer.text) {nodes : List Node}
    (parsed : parse buffer = .ok nodes) : ∃ last, Escaped 0 last nodes := by
  unfold parse at parsed
  cases read : Mustache.nodes none (Cursor.start buffer) with
  | error why =>
    rw [read] at parsed
    cases parsed
  | ok reading =>
    rw [read] at parsed
    cases parsed
    exact ⟨_, nodes_escaped plain none (Cursor.start buffer) reading read⟩

end Grammar.Mustache

end Stencil
