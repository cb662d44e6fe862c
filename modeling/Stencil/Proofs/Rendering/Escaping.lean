import Mathlib
import Stencil.Proofs.Grammar.Mustache.Trees
import Stencil.Proofs.Markup
import Stencil.Proofs.Rendering.Prints
import Stencil.Proofs.Rendering.Spelling

/-! # The output of mustache templates is escaped

In a mustache template without a triple brace a tag prints its value escaped, and everything else
in the output is raw text of the template. So the output is put together from pieces in the order
of the template, and what comes from the data has no markup in it, whatever the data is.
-/

namespace Stencil

open Routine (Outcome)

/-- The text may be printed by the node: raw text prints itself, and whatever else is printed is
inert. -/
def Node.MayPrint (node : Node) (text : String) : Prop :=
  (∃ source data, node = .raw source data ∧ Utf8.decode? data = some text) ∨
    Markup.Inert text.toList

/-- The text is put together from what some of the nodes print, in their order. -/
def Pieced (nodes : List Node) (text : String) : Prop :=
  ∃ pieces : List (Node × String), text = String.join (pieces.map Prod.snd) ∧
    (pieces.map Prod.fst).Sublist nodes ∧ ∀ piece ∈ pieces, piece.1.MayPrint piece.2

namespace Pieced

theorem empty (nodes : List Node) : Pieced nodes "" :=
  ⟨[], rfl, List.nil_sublist nodes, nofun⟩

theorem single {node : Node} {text : String} (prints : node.MayPrint text) : Pieced [node] text :=
  ⟨[(node, text)], (String.empty_append).symm, .refl _, List.forall_mem_singleton.mpr prints⟩

theorem append {nodes others : List Node} {text more : String} (first : Pieced nodes text)
    (second : Pieced others more) : Pieced (nodes ++ others) (text ++ more) := by
  obtain ⟨pieces, rfl, within, prints⟩ := first
  obtain ⟨pieces', rfl, within', prints'⟩ := second
  refine ⟨pieces ++ pieces', ?_, ?_, List.forall_mem_append.mpr ⟨prints, prints'⟩⟩
  · rw [List.map_append, String.join_append]
  · rw [List.map_append]
    exact within.append within'

end Pieced

/-! ## Values of nodes -/

/-- The value has nothing deferred in it, and its text is put together from what the nodes print. -/
structure Shows (nodes : List Node) (value : Value) : Prop where
  computed : value.computed? = some value
  pieced : ∀ text, value.flatten = .ok text → Pieced nodes text

/-- The values belong to the nodes, and each shows what its node prints. -/
def ShowAll : List Node → List Value → Prop := List.Forall₂ fun node => Shows node.printed

theorem computedItems?_of_shows {nodes : List Node} {values : List Value}
    (all : ShowAll nodes values) : Value.computedItems? values = some values := by
  induction all with
  | nil => rfl
  | cons shows _ ih =>
    rw [Value.computedItems?, shows.computed, ih]
    rfl

/-- A text that values show is put together from the pieces of their nodes. -/
theorem pieced_of_flattenItems {nodes : List Node} {values : List Value}
    (all : ShowAll nodes values) {text : String}
    (flat : Value.flattenItems values = .ok text) : Pieced (Node.printedAll nodes) text := by
  induction all generalizing text with
  | nil =>
    cases flat
    exact .empty _
  | cons shows _ ih =>
    rename_i node value nodes values _
    rw [Value.flattenItems] at flat
    cases first : value.flatten with
    | error fault =>
      rw [first] at flat
      cases flat
    | ok piece =>
      cases others : Value.flattenItems values with
      | error fault =>
        rw [first, others] at flat
        cases flat
      | ok rest =>
        rw [first, others] at flat
        cases flat
        rw [Node.printedAll]
        exact (shows.pieced _ first).append (ih others)

theorem finished_pieced {nodes : List Node} {values : Evaluation (List Value)}
    (all : values.Ensures (ShowAll nodes)) :
    (finished nodes values).Ensures (Pieced (Node.printedAll nodes)) := by
  rw [finished_eq]
  refine all.bind fun computed shows => .ofAttempt ?_
  have spells := spell_assured (I := fun _ => True) (fun _ _ _ _ _ => trivial) nodes computed
  refine spells.mono ?_
  rintro _ same text rfl
  rw [spelled?, computedItems?_of_shows shows] at same
  have flat : (flattenNodes nodes computed).toOption = some text := same.symm
  rw [flattenNodes_toOption shows.length_eq.symm] at flat
  cases items : Value.flattenItems computed with
  | error fault =>
    rw [items] at flat
    cases flat
  | ok text' =>
    rw [items] at flat
    cases flat
    exact pieced_of_flattenItems shows items

/-! ## Evaluating nodes -/

/-- A printing tag gives an escaped text. -/
theorem Tags.print_ensures (call : Call) :
    (Tags.print call).Ensures fun value => ∃ text, value = .string (Markup.escape text) := by
  unfold Tags.print
  refine (Evaluation.Ensures.any _).bind fun _ _ => ?_
  exact (Evaluation.Ensures.any _).bind fun text _ => .pure ⟨text, rfl⟩

namespace Scope

variable {scope : Scope}

/-- A body shows what its nodes do. -/
theorem forked_shows {nodes : List Node} {body : Evaluation (List Value)}
    (all : body.Ensures (ShowAll nodes)) : (forked body).Ensures (Shows (Node.printedAll nodes)) := by
  apply Evaluation.Ensures.isolated
  refine all.bind fun values shows => .pure ⟨?_, ?_⟩
  · rw [Value.computed?, computedItems?_of_shows shows]
    rfl
  · intro text flat
    rw [Value.flatten] at flat
    exact pieced_of_flattenItems shows flat

theorem render_raw (source : Source) (data : List UInt8) :
    (scope.render (.raw source data)).Ensures (Shows [.raw source data]) := by
  unfold render
  refine .pure ⟨rfl, ?_⟩
  intro text flat
  unfold Value.flatten at flat
  cases decoded : Utf8.decode? data with
  | none =>
    rw [decoded] at flat
    cases flat
  | some text' =>
    rw [decoded] at flat
    cases flat
    exact .single (.inl ⟨source, data, rfl, decoded⟩)

/-- A printing tag shows an escaped text. -/
theorem render_print (builtin : scope.tags = Tags.builtin) (source : Source)
    (parameters : List Node) : (scope.render (.tag source "" parameters none)).Ensures
      (Shows [.tag source "" parameters none]) := by
  unfold render Scope.call
  rw [builtin, Tags.find?_print]
  refine (Evaluation.Ensures.any _).bind fun values _ => ?_
  refine (Tags.print_ensures _).imp ?_
  rintro _ ⟨printed, rfl⟩
  refine ⟨rfl, ?_⟩
  rintro _ ⟨⟩
  exact .single (.inr (Markup.inert_escape printed))

/-- Whatever the data is, a node that prints nothing unescaped but raw text evaluates to a value
that shows what the node prints. -/
theorem render_shows (builtin : scope.tags = Tags.builtin) {node : Node}
    (escaping : Grammar.Mustache.Escaping node) :
    (scope.render node).Ensures (Shows node.printed) := by
  induction escaping with
  | raw source data =>
    rw [Node.printed_raw]
    exact render_raw source data
  | print source place path =>
    rw [Node.printed_tag]
    exact render_print builtin source _
  | block source place path each ih =>
    rw [Node.printed_block]
    unfold render renderBranches
    refine (Evaluation.Ensures.any _).bind fun condition _ => ?_
    split
    · exact forked_shows (renderAll_ensures ih)
    · refine .pure ⟨rfl, ?_⟩
      rintro _ ⟨⟩
      exact .empty _

end Scope

namespace Grammar.Mustache

/-- The text of a mustache template without a triple brace is put together, in the order of the
template, from pieces that are each printed by a node of it: raw text as it stands in the template,
or text in which no character is active and each ampersand starts an entity. This is so for all
data, and whatever others do to the store meanwhile. -/
theorem serialize_escaped {buffer : Buffer} (plain : ¬ triple <:+: buffer.text)
    {nodes : List Node} (parsed : parse buffer = .ok nodes) {scope : Scope}
    (builtin : scope.tags = Tags.builtin) {data left : Value} {text : String}
    (possible : Outcome (fun _ => True) ((scope.serialize nodes).runOn data) (.ok text, left)) :
    ∃ pieces : List (Node × String), text = String.join (pieces.map Prod.snd) ∧
      (pieces.map Prod.fst).Sublist (Node.printedAll nodes) ∧
      pieces.Pairwise (fun a b => a.1.source.stop ≤ b.1.source.start) ∧
      ∀ piece ∈ pieces, piece.1.MayPrint piece.2 := by
  obtain ⟨last, escaped⟩ := parse_escaped plain parsed
  have shows := Scope.renderAll_ensures fun node member =>
    Scope.render_shows builtin (escaped.escaping node member)
  obtain ⟨pieces, whole, within, prints⟩ := finished_pieced shows data text left possible
  exact ⟨pieces, whole, within, List.pairwise_map.mp (escaped.within.ordered.sublist within), prints⟩

private def angled : Buffer := ⟨"t", byte '<' :: (opener ++ byte 'x' :: closer)⟩

private def angledNodes : List Node :=
  [.raw ⟨"t", 0, 0, 0, 1, angled.text⟩ [byte '<'],
    .tag ⟨"t", 0, 1, 1, 6, angled.text⟩ ""
      [.identifier ⟨"t", 0, 3, 3, 4, angled.text⟩ ⟨[.key "x"]⟩] none]

/-- The angle bracket of the template is kept, and that of the data is not. -/
theorem serialize_escaped_angled :
    let scope : Scope := ⟨Tags.builtin, .unavailable, 0⟩
    let data : Value := .map [("x", .string "<&")]
    parse angled = .ok angledNodes ∧
      Outcome (fun _ => True) ((scope.serialize angledNodes).runOn data)
        (.ok "<&lt;&amp;", data) ∧
      ∃ pieces : List (Node × String), "<&lt;&amp;" = String.join (pieces.map Prod.snd) ∧
        (pieces.map Prod.fst).Sublist (Node.printedAll angledNodes) ∧
        pieces.Pairwise (fun a b => a.1.source.stop ≤ b.1.source.start) ∧
        ∀ piece ∈ pieces, piece.1.MayPrint piece.2 := by
  intro scope data
  have parsed : parse angled = .ok angledNodes := by cbv
  have plain : ¬ triple <:+: angled.text := by decide
  have there : data.get ⟨[.key "x"]⟩ = .string "<&" := by rfl
  have prints : scope.Prints data angledNodes (['<'] ++ ((Markup.escape "<&").toList ++ [])) :=
    Scope.prints_raw rfl (Scope.prints_path rfl there _ _ .nil)
  have possible : Outcome (fun _ => True) ((scope.serialize angledNodes).runOn data)
      (.ok "<&lt;&amp;", data) := by
    rw [prints.serialize]
    exact ⟨.empty, .empty, trivial, .done _ _⟩
  exact ⟨parsed, possible, serialize_escaped plain parsed rfl possible⟩

end Grammar.Mustache

end Stencil
