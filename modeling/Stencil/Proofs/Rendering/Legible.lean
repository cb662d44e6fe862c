import Stencil.Proofs.Rendering.Failing
import Stencil.Proofs.Rendering.Spelling
import Stencil.Proofs.Tags.Fair

/-! # Values that have a text

Not every value has a text, but what a node evaluates to does, unless it is a path by itself, which
may lead to anything. Raw text has to be cut from a text, and tags have to print. Conditionals and
loops nest the values of their bodies and interpolated literals put them together, so the same has
to be so of the nodes in there.
-/

namespace Stencil

open Evaluation (Ensures)
open Routine (Assured)

/-! ## Values -/

/-- Once the value is computed it has a text. -/
def Value.Printable (value : Value) : Prop :=
  ∀ computed, value.computed? = some computed → ∃ text, computed.flatten = .ok text

namespace Value.Printable

variable {values computed : List Value}

theorem of_flatten {value : Value} {text : String} (whole : value.computed? = some value)
    (flat : value.flatten = .ok text) : value.Printable := by
  intro computed same
  rw [whole] at same
  cases same
  exact ⟨text, flat⟩

theorem null : Printable .null := .of_flatten rfl rfl

theorem bool (b : Bool) : Printable (.bool b) := .of_flatten rfl rfl

theorem int (i : Int64) : Printable (.int i) := .of_flatten rfl rfl

theorem float (x : Float) : Printable (.float x) := .of_flatten rfl rfl

theorem string (s : String) : Printable (.string s) := .of_flatten rfl rfl

theorem bytes {data : List UInt8} (valid : Utf8.Valid data) : Printable (.bytes data) := by
  obtain ⟨text, decodes⟩ := Option.isSome_iff_exists.mp valid
  have flat : (Value.bytes data).flatten = .ok text := by rw [Value.flatten, decodes]
  exact .of_flatten rfl flat

theorem cons {value : Value} (all : Value.computedItems? (value :: values) = some computed) :
    ∃ first others, value.computed? = some first ∧ Value.computedItems? values = some others ∧
      computed = first :: others := by
  rw [Value.computedItems?] at all
  simp only [Option.bind_eq_bind, Option.bind_eq_some_iff, Option.pure_def, Option.some.injEq] at all
  obtain ⟨first, own, others, rest, same⟩ := all
  exact ⟨first, others, own, rest, same.symm⟩

theorem flattenItems (each : ∀ value ∈ values, value.Printable)
    (all : Value.computedItems? values = some computed) :
    ∃ text, Value.flattenItems computed = .ok text := by
  induction values generalizing computed with
  | nil =>
    cases all
    exact ⟨"", rfl⟩
  | cons value values ih =>
    obtain ⟨prints, others⟩ := List.forall_mem_cons.mp each
    obtain ⟨first, rest, own, further, rfl⟩ := cons all
    obtain ⟨text, flat⟩ := prints first own
    obtain ⟨more, flats⟩ := ih others further
    exact ⟨text ++ more, by rw [Value.flattenItems, flat, flats]; rfl⟩

theorem array (each : ∀ value ∈ values, value.Printable) : Printable (.array values) := by
  intro computed same
  rw [Value.computed?] at same
  obtain ⟨items, all, rfl⟩ := Option.map_eq_some_iff.mp same
  obtain ⟨text, flat⟩ := flattenItems each all
  exact ⟨text, by rw [Value.flatten, flat]⟩

/-- Printable values have a text together, whatever nodes they belong to. -/
theorem flattenNodes (each : ∀ value ∈ values, value.Printable)
    (all : Value.computedItems? values = some computed) (nodes : List Node) :
    ∃ text, Stencil.flattenNodes nodes computed = .ok text := by
  induction values generalizing computed nodes with
  | nil =>
    cases all
    cases nodes <;> exact ⟨"", rfl⟩
  | cons value values ih =>
    obtain ⟨prints, others⟩ := List.forall_mem_cons.mp each
    obtain ⟨first, rest, own, further, rfl⟩ := cons all
    cases nodes with
    | nil => exact ⟨"", rfl⟩
    | cons node nodes =>
      obtain ⟨text, flat⟩ := prints first own
      obtain ⟨more, flats⟩ := ih others further nodes
      exact ⟨text ++ more, by rw [Stencil.flattenNodes, flat, flats]; rfl⟩

/-- Nodes with such values have a text. -/
theorem tells {E : Error → Prop} (each : ∀ value ∈ values, value.Printable) (nodes : List Node) :
    Tells E nodes values := by
  intro computed all why failed
  obtain ⟨text, flat⟩ := flattenNodes each all nodes
  rw [flat] at failed
  cases failed

end Value.Printable

open Value (Printable)

/-- What operators give has a text. -/
theorem printable_apply (op : InfixOp) (a b : Value) : (op.apply a b).Printable := by
  have getD {α : Type} (found : Option α) {make : α → Value} (each : ∀ a, (make a).Printable) :
      ((found.map make).getD .null).Printable := by
    cases found with
    | none => exact .null
    | some a => exact each a
  have arithmetic : (op.arithmetic a b).Printable := by
    unfold InfixOp.arithmetic
    split
    · exact getD _ .int
    · split
      · exact getD _ .float
      · exact .null
  cases op with
  | equal | notEqual | and | or => exact .bool _
  | less | greater | lessOrEqual | greaterOrEqual => exact getD _ fun _ => .bool _
  | add | subtract | multiply | divide | modulo => exact arithmetic

/-! ## Tags -/

/-- Whatever the call is, what the handler gives has a text. -/
def Handler.Prints (handler : Handler) : Prop := ∀ call, (handler call).Ensures Printable

namespace Tags

theorem print_prints : Handler.Prints print := fun _ =>
  (Ensures.any _).bind fun _ _ => (Ensures.any _).bind fun _ _ => .pure (.string _)

theorem verbatim_prints : Handler.Prints verbatim := fun _ =>
  (Ensures.any _).bind fun _ _ => (Ensures.any _).bind fun _ _ => .pure (.string _)

theorem contains_prints : Handler.Prints contains := fun _ =>
  (Ensures.any _).bind fun _ _ => .pure (.bool _)

theorem textMap_prints (f : String → String) : Handler.Prints (textMap f) := fun _ =>
  (Ensures.any _).bind fun _ _ => .pure (.string _)

theorem count_prints : Handler.Prints count := by
  refine fun call => (Ensures.any _).bind fun _ _ => .pure ?_
  split
  · exact .int _
  · exact .int _
  · exact .null

theorem comment_prints : Handler.Prints comment := fun _ => .pure .null

/-- What an assignment gives is null. -/
theorem assign_prints : Handler.Prints assign := by
  intro call
  unfold assign
  dsimp only
  split
  · split
    · exact .throw _
    · refine (Ensures.any _).bind fun value _ => (Ensures.any _).bind fun data _ => ?_
      split
      · exact (Ensures.any _).bind fun _ _ => .pure .null
      · exact .throw _
  · exact .throw _

theorem date_prints : Handler.Prints date := by
  intro call
  unfold date
  dsimp only
  split
  · split
    · exact .throw _
    split
    · exact .throw _
    · refine (Ensures.any _).bind fun pattern _ => ?_
      split
      · exact .throw _
      split
      · exact .throw _
      · exact .pure (.string _)
  · exact .throw _

/-- Every built-in tag gives what can be printed. -/
theorem builtin_prints : builtin.Each Handler.Prints := by
  refine .registerAll .empty ?_
  simp only [List.forall_mem_cons, List.not_mem_nil, false_implies, implies_true, and_true]
  exact ⟨print_prints, verbatim_prints, contains_prints, textMap_prints _, textMap_prints _,
    textMap_prints _, count_prints, assign_prints, assign_prints, date_prints, comment_prints⟩

end Tags

/-! ## Nodes -/

namespace Scope

variable {scope : Scope}

theorem renderAll_printable {nodes : List Node}
    (each : ∀ node ∈ nodes, (scope.render node).Ensures Printable) :
    (scope.renderAll nodes).Ensures (∀ value ∈ ·, value.Printable) := by
  refine (renderAll_ensures each).imp fun values all value member => ?_
  obtain ⟨place, within, rfl⟩ := List.getElem_of_mem member
  exact all.get (all.length_eq ▸ within) within

theorem forked_printable {body : Evaluation (List Value)}
    (each : body.Ensures (∀ value ∈ ·, value.Printable)) : (forked body).Ensures Printable :=
  Ensures.isolated (each.bind fun _ all => .pure (.array all)) _

theorem forItems_printable {key : String} {items : List Value} {body : Evaluation (List Value)}
    (each : body.Ensures (∀ value ∈ ·, value.Printable)) :
    (forItems key items body).Ensures Printable := by
  refine (Ensures.any _).bind fun data _ => ?_
  have attempts : ∀ attempt ∈ items.mapIdx fun place item =>
      body.attemptOn (data.derive (loopBindings key items.length place item)),
      Assured (fun _ => True) (Held (fun _ => True) (∀ value ∈ ·, value.Printable)) attempt := by
    intro attempt member
    obtain ⟨place, within, rfl⟩ := List.mem_mapIdx.mp member
    refine (each.attemptOn _).mono ?_
    rintro (why | values) all
    · trivial
    · exact all values rfl
  refine (Ensures.ofAttempt ((joinAll_held attempts).mono ?_)).bind
    fun results (all : ∀ values ∈ results, ∀ value ∈ values, value.Printable) => ?_
  · rintro _ held values rfl
    exact held
  · refine .pure (.array fun value member => ?_)
    obtain ⟨values, among, rfl⟩ := List.mem_map.mp member
    exact .array (all values among)

theorem iterated_printable (source : Source) (key data : Evaluation Value)
    {body : Evaluation (List Value)} (each : body.Ensures (∀ value ∈ ·, value.Printable)) :
    (iterated source key data body).Ensures Printable := by
  unfold iterated
  refine (Ensures.any _).bind fun name _ => ?_
  split
  · exact .throw _
  · refine (Ensures.any _).bind fun found _ => ?_
    split
    · exact .pure .null
    · exact forItems_printable each
    · exact .throw _

theorem renderBranches_printable {branches : List (Node × List Node)}
    (each : ∀ branch ∈ branches,
      (scope.renderAll branch.2).Ensures (∀ value ∈ ·, value.Printable)) :
    (scope.renderBranches branches).Ensures Printable := by
  induction branches with
  | nil =>
    unfold renderBranches
    exact .pure .null
  | cons branch rest ih =>
    obtain ⟨first, others⟩ := List.forall_mem_cons.mp each
    unfold renderBranches
    refine (Ensures.any _).bind fun value _ => ?_
    split
    · exact forked_printable first
    · exact ih others

/-- A call prints what its handler gives. -/
theorem call_printable (tags : scope.tags.Each Handler.Prints) (source : Source) (name : String)
    (parameters : Evaluation (List Value)) (body : Option Body) :
    (scope.call source name parameters body).Ensures Printable := by
  unfold call
  split
  · exact .throw _
  · rename_i handler found
    exact (Ensures.any _).bind fun _ _ => tags name handler found _

theorem embed_printable (source : Source) (path : Evaluation Value) :
    (scope.embed source path).Ensures Printable := by
  rw [embed_eq]
  refine (Ensures.any _).bind fun value _ => ?_
  split
  · exact .throw _
  · exact (Ensures.any _).bind fun text _ => .pure (.string text)

/-- With tags that print, a legible node in which all is tidy evaluates to a value with a text. -/
theorem render_printable (tags : scope.tags.Each Handler.Prints) {node : Node}
    (legible : node.Legible) (tidy : node.Everywhere Node.Tidy) :
    (scope.render node).Ensures Printable := by
  induction node using Node.child_induction with
  | step node ih =>
    -- A child on its own need not have a text: a path in a condition or a parameter has none.
    have texts : ∀ block ∈ node.blocks,
        (scope.renderAll block).Ensures (∀ value ∈ ·, value.Printable) := by
      refine fun block among => renderAll_printable fun inner member => ?_
      have child := Node.child_of_block among member
      exact ih inner child (tidy.self.blocks block among inner member) (tidy.inside child)
    cases node with
    | raw source data =>
      unfold render
      exact .pure (.bytes legible)
    | literal source constant =>
      unfold render
      cases constant with
      | bool b => exact .pure (.bool b)
      | int i => exact .pure (.int i)
      | float x => exact .pure (.float x)
      | string s => exact .pure (.string s)
    | interpolated source nodes =>
      unfold render
      exact (Ensures.any _).bind fun text _ => .pure (.string text)
    | identifier source path => exact legible.elim
    | infixOp source op left right =>
      unfold render
      refine (Ensures.any _).bind fun a _ => (Ensures.any _).bind fun b _ => ?_
      exact .pure (printable_apply op a b)
    | negation source operand =>
      unfold render
      exact (Ensures.any _).bind fun value _ => .pure (.bool _)
    | conditional source condition body others =>
      obtain ⟨first, rest⟩ := List.forall_mem_cons.mp texts
      unfold render
      refine (Ensures.any _).bind fun value _ => ?_
      split
      · exact forked_printable first
      · refine renderBranches_printable fun branch among => ?_
        exact rest branch.2 (List.mem_map_of_mem among)
    | loop source key data body =>
      unfold render
      exact iterated_printable source _ _ (texts body (List.mem_singleton_self body))
    | embed source path =>
      unfold render
      exact embed_printable source _
    | tag source name parameters body =>
      cases body <;> unfold render <;> exact call_printable tags source name _ _
    | host source number action => exact legible.elim

/-- Legible nodes have a text, so there is no error of theirs to account for. -/
theorem renderAll_tells {E : Error → Prop} (tags : scope.tags.Each Handler.Prints)
    {nodes : List Node} (legible : Node.LegibleAll nodes) :
    (scope.renderAll nodes).Ensures (Tells E nodes) :=
  (renderAll_printable fun node member =>
    render_printable tags (legible node member).1 (legible node member).2).imp
      fun _ each => Printable.tells each nodes

end Scope

end Stencil
