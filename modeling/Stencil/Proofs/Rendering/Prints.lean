import Stencil.Proofs.Bare
import Stencil.Proofs.Evaluation
import Stencil.Proofs.Text.Utf8
import Stencil.Proofs.Value.Resolution
import Stencil.Render
import Stencil.Tags.Builtin

/-! # Nodes that print a text

Nodes print a text on some data when they evaluate at once to values with nothing deferred in
them, whose texts one after the other are that text. Raw text prints itself, and a tag without a
name prints what its path leads to, escaped.
-/

namespace Stencil

open Evaluation

variable {scope : Scope} {data : Value}

/-! ## Tags on one value -/

namespace Tags

variable {call : Call}

theorem find?_print : builtin.find? "" = some print := rfl

theorem find?_verbatim : builtin.find? "get" = some verbatim := rfl

theorem singleText_eq (one : call.parameters.length = 1) :
    singleText call = pure ((call.parameter 0).asString.getD "") := by
  unfold singleText Call.requireCount
  rw [if_pos one]
  rfl

/-- A printing tag escapes the text of its parameter. -/
theorem print_eq (bodiless : call.body = none) (one : call.parameters.length = 1) :
    print call = pure (.string (Markup.escape ((call.parameter 0).asString.getD ""))) := by
  unfold print Call.requireNoBody
  rw [bodiless, singleText_eq one]
  rfl

/-- A verbatim tag gives the text of its parameter. -/
theorem verbatim_eq (bodiless : call.body = none) (one : call.parameters.length = 1) :
    verbatim call = pure (.string ((call.parameter 0).asString.getD "")) := by
  unfold verbatim Call.requireNoBody
  rw [bodiless, singleText_eq one]
  rfl

end Tags

/-! ## Nodes -/

namespace Scope

/-- The nodes print the text on the data. -/
def Prints (scope : Scope) (data : Value) (nodes : List Node) (cs : List Char) : Prop :=
  ∃ values, Gives (scope.renderAll nodes) data values ∧ (∀ value ∈ values, value.Settled) ∧
    flattenNodes nodes values = .ok (String.ofList cs)

namespace Prints

theorem nil : scope.Prints data [] [] := by
  refine ⟨[], ?_, nofun, ?_⟩
  · rw [renderAll]
    exact .pure []
  · rfl

theorem cons {node : Node} {nodes : List Node} {value : Value} {cs ds : List Char}
    (evaluated : Gives (scope.render node) data value) (settled : value.Settled)
    (text : value.flatten = .ok (String.ofList cs)) (others : scope.Prints data nodes ds) :
    scope.Prints data (node :: nodes) (cs ++ ds) := by
  obtain ⟨values, all, allSettled, texts⟩ := others
  refine ⟨value :: values, ?_, ?_, ?_⟩
  · rw [renderAll]
    exact evaluated.bind (all.bind (.pure _))
  · intro other member
    rcases List.mem_cons.mp member with rfl | inside
    · exact settled
    · exact allSettled other inside
  · rw [flattenNodes, text, texts, String.ofList_append]
    rfl

/-- What is printed is the text of the nodes. -/
theorem serialize {nodes : List Node} {cs : List Char} (prints : scope.Prints data nodes cs) :
    Gives (scope.serialize nodes) data (String.ofList cs) := by
  obtain ⟨values, all, settled, texts⟩ := prints
  rw [Scope.serialize, finished]
  have resolved : Routine.joinAll (Value.resolveItems values) = .done (.ok values) := by
    rw [Value.resolveItems_of_settled settled, Routine.joinAll_done]
  have flattened : Attempt.of (flattenNodes nodes values) = .done (.ok (String.ofList cs)) := by
    rw [Attempt.of, texts]
  exact all.bind ((Gives.ofAttempt resolved).bind (.ofAttempt flattened))

end Prints

/-- Raw text prints itself. -/
theorem prints_raw {node : Node} {nodes : List Node} {cs ds : List Char}
    (raw : node.bare = .raw nowhere (Utf8.encodeChars cs)) (others : scope.Prints data nodes ds) :
    scope.Prints data (node :: nodes) (cs ++ ds) := by
  cases node with
  | raw source bytes =>
    rw [Node.bare, Node.raw.injEq] at raw
    refine .cons ?_ (Value.settled_bytes bytes) ?_ others
    · rw [render]
      exact .pure _
    · rw [Value.flatten, raw.2, Utf8.decode?_encodeChars]
  | tag _ _ _ body => cases body <;> simp [Node.bare] at raw
  | _ => simp [Node.bare] at raw

/-- A tag without a name prints the text at its path, escaped. -/
theorem prints_path (builtin : scope.tags = Tags.builtin) {path : Path} {text : String}
    (there : data.get path = .string text) (source source' : Source) {nodes : List Node}
    {ds : List Char} (others : scope.Prints data nodes ds) :
    scope.Prints data (.tag source "" [.identifier source' path] none :: nodes)
      ((Markup.escape text).toList ++ ds) := by
  have parameter : Gives (scope.renderResolved [.identifier source' path]) data
      [.string text] := by
    have value : Gives (scope.render (.identifier source' path)) data (.string text) := by
      rw [render, ← there]
      exact Gives.bind (a := data) rfl (.pure _)
    rw [renderResolved, renderResolved, resolved]
    exact (value.bind (.ofAttempt (Value.settled_string text))).bind ((Gives.pure _).bind (.pure _))
  have flat : (Value.string (Markup.escape text)).flatten =
      .ok (String.ofList (Markup.escape text).toList) := by
    simp [Value.flatten, Value.asString]
  refine .cons ?_ (Value.settled_string _) flat others
  rw [render, call, builtin, Tags.find?_print]
  refine parameter.bind ?_
  rw [Tags.print_eq rfl rfl]
  exact .pure _

end Scope

end Stencil
