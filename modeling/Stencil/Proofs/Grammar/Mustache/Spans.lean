import Stencil.Grammar.Mustache
import Stencil.Proofs.Parts
import Stencil.Proofs.Places

/-! # Mustache templates are covered by their nodes

A mustache template has four forms of nodes, and the sources of all of them are exact, as is that of
the error where it cannot be read. Outside of all sections no close is dropped, so the nodes there
cover the template without a gap.
-/

namespace Stencil

open Error (Placed)

namespace Grammar.Mustache

/-- A node of a template: raw text, a printing tag or a section. -/
inductive Made : Node → Prop
  | raw {source : Source} (exact : source.Exact) (data : List UInt8) : Made (.raw source data)
  | print {source place : Source} (exact : source.Exact) (named : place.Exact) (path : Path) :
      Made (.tag source "" [.identifier place path] none)
  | get {source place : Source} (exact : source.Exact) (named : place.Exact) (path : Path) :
      Made (.tag source "get" [.identifier place path] none)
  | block {source place : Source} (exact : source.Exact) (named : place.Exact) (path : Path)
      {body : List Node} (each : ∀ node ∈ body, Made node) :
      Made (.conditional source (.identifier place path) body [])

/-- A node of a template, or the name in one. -/
def MadeOrNamed (node : Node) : Prop :=
  Made node ∨ ∃ place path, node = .identifier place path ∧ place.Exact

theorem Made.everywhere {node : Node} (made : Made node) : node.Everywhere MadeOrNamed := by
  refine Node.everywhere_of_child ?_ (.inl made)
  rintro node child (made | ⟨place, path, rfl, exact⟩) inside
  · cases made with
    | raw => cases inside
    | print _ named =>
      cases inside with
      | parameter member => exact .inr ⟨_, _, List.mem_singleton.mp member, named⟩
    | get _ named =>
      cases inside with
      | parameter member => exact .inr ⟨_, _, List.mem_singleton.mp member, named⟩
    | block _ named _ each =>
      cases inside with
      | condition => exact .inr ⟨_, _, rfl, named⟩
      | block member => exact .inl (each _ member)
      | otherCondition among => cases among
      | otherBlock among => cases among
  · cases inside

/-- A node of the grammar has exact sources, with all that is in it. -/
theorem Made.located {node : Node} (made : Made node) : node.Everywhere Node.Located := by
  refine made.everywhere.imp ?_
  rintro part (made | ⟨place, path, rfl, exact⟩)
  · cases made with
    | raw exact | print exact | get exact | block exact => exact ⟨exact, nofun⟩
  · exact ⟨exact, nofun⟩

variable {buffer : Buffer} {c : Cursor buffer} {start : Position}

theorem name_meets (c : Cursor buffer) :
    Meets Placed (fun named _ => named.1.Exact) (name c) := by
  unfold name
  dsimp only
  split
  · exact .fault (Cursor.passed_self _) _
  · exact .of_ok ((Cursor.passed_self _).later (Cursor.remaining_skip_le _ _)).exact

theorem closedName_meets (marker : List UInt8) (passed : c.Passed start) :
    Meets Placed (fun named _ => named.1.Exact) (closedName marker start c) := by
  unfold closedName
  refine (name_meets c).bind ?_
  rintro ⟨named, next, below⟩ exact
  dsimp only
  split
  · exact .of_ok exact
  · exact .fault (passed.later (Nat.le_of_lt below)) _

/-- The piece between two cursors has exact sources; a node covers what is between them. -/
def Covers (c : Cursor buffer) : Piece → Cursor buffer → Prop
  | .node node, next => Made node ∧ node.source.start = c.position.offset ∧
      node.source.stop = next.position.offset
  | .opening start name _, _ => start = c.position ∧ name.Exact
  | .closing source _, _ => source.Exact

/-- A tag covers what is read of it. -/
theorem tag_covers (c : Cursor buffer) : Meets Placed (Covers c) (tag c) := by
  have inner : (c.advance opener.length).Passed c.position :=
    c.passed_self.later (c.remaining_advance_le _)
  have named := inner.later ((c.advance opener.length).remaining_advance_le 1)
  unfold tag
  dsimp only
  split
  · exact .fault inner _
  split
  · refine (closedName_meets _ named).bind ?_
    rintro ⟨_, next, below⟩ place
    have closed := named.later (Nat.le_of_lt below)
    exact .of_ok ⟨.get closed.exact place _, rfl, rfl⟩
  split
  · refine (closedName_meets _ named).bind ?_
    rintro ⟨_, next, below⟩ place
    exact .of_ok ⟨rfl, place⟩
  split
  · refine (closedName_meets _ named).bind ?_
    rintro ⟨_, next, below⟩ place
    exact .of_ok (named.later (Nat.le_of_lt below)).exact
  · refine (closedName_meets _ inner).bind ?_
    rintro ⟨_, next, below⟩ place
    have closed := inner.later (Nat.le_of_lt below)
    exact .of_ok ⟨.print closed.exact place _, rfl, rfl⟩

theorem piece_covers (c : Cursor buffer) (left : c.rest ≠ []) :
    Meets Placed (Covers c) (piece c left) := by
  unfold piece
  split
  · exact tag_covers c
  · have passed := c.passed_self.later (c.remaining_advance_le (rawLength c.rest))
    exact .of_ok ⟨.raw passed.exact _, rfl, rfl⟩

/-- The nodes between two cursors are made by the grammar; outside of all sections they go to the
end of the text, without a gap. -/
structure Covered (open? : Option Path) (c : Cursor buffer) (nodes : List Node)
    (next : Cursor buffer) : Prop where
  each : ∀ node ∈ nodes, Made node
  whole : open? = none → next.rest = [] ∧ Tiled c.position.offset nodes next.position.offset

theorem Covered.cons {open? : Option Path} {node : Node} {nodes : List Node}
    {middle next : Cursor buffer} (made : Made node) (start : node.source.start = c.position.offset)
    (stop : node.source.stop = middle.position.offset) (goesOn : middle.remaining < c.remaining)
    (rest : Covered open? middle nodes next) : Covered open? c (node :: nodes) next where
  each := List.forall_mem_cons.mpr ⟨made, rest.each⟩
  whole := by
    intro outside
    have before : c.position.offset < node.source.stop := by
      rw [stop]
      have first := c.offset_add_remaining
      have second := middle.offset_add_remaining
      omega
    obtain ⟨atEnd, tiled⟩ := rest.whole outside
    exact ⟨atEnd, .cons start before (stop ▸ tiled)⟩

/-- Nodes cover what is read, one behind the other, with dropped closes between them. -/
theorem nodes_covered (open? : Option Path) (c : Cursor buffer) :
    Meets Placed (Covered open? c) (nodes open? c) := by
  unfold nodes
  split
  · rename_i atEnd
    exact .of_ok ⟨nofun, fun _ => ⟨atEnd, .nil _⟩⟩
  · rename_i left
    refine (piece_covers c left).bind ?_
    rintro ⟨read, next, below⟩ covers
    cases read with
    | node node =>
      obtain ⟨made, start, stop⟩ := covers
      refine (nodes_covered open? next).bind ?_
      rintro ⟨others, after, within⟩ rest
      exact .of_ok (rest.cons made start stop below)
    | opening start source path =>
      obtain ⟨rfl, named⟩ := covers
      refine (nodes_covered (some path) next).bind ?_
      rintro ⟨body, after, inside⟩ block
      refine (nodes_covered open? after).bind ?_
      rintro ⟨others, last, within⟩ rest
      have goesOn : after.remaining < c.remaining := by omega
      have passed := c.passed_self.later (Nat.le_of_lt goesOn)
      exact .of_ok (rest.cons (.block passed.exact named _ block.each) rfl rfl goesOn)
    | closing source path =>
      cases open? with
      | none => exact .of_error ⟨_, _, rfl, covers⟩
      | some opened =>
        dsimp only
        split
        · exact .of_ok ⟨nofun, nofun⟩
        · refine (nodes_covered (some opened) next).bind ?_
          rintro ⟨others, after, within⟩ rest
          exact .of_ok ⟨rest.each, nofun⟩
termination_by c.remaining

theorem parse_placed {why : Error} (failed : parse buffer = .error why) : Placed why :=
  (nodes_covered none (Cursor.start buffer)).of_failure failed

/-- The nodes of a template cover its text. -/
theorem parse_covered {nodes : List Node} (parsed : parse buffer = .ok nodes) :
    ∃ next, Covered none (Cursor.start buffer) nodes next :=
  (nodes_covered none (Cursor.start buffer)).of_value parsed

end Grammar.Mustache

end Stencil
