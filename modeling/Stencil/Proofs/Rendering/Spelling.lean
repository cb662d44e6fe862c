import Stencil.Proofs.Rendering.Scopes
import Stencil.Proofs.Rendering.Transfer
import Stencil.Proofs.Routine.Over

/-! # What nodes spell

The text of nodes is told by the values they evaluate to, once these are computed. It is put
together from left to right, so it does not matter how a list of nodes is divided, and an evaluation
of one list transfers to that of another when it does part by part.
-/

namespace Stencil

open Attempt (Transfers)
open Comparison (Related)
open Routine (Assured Outcome Runs)

/-- The text of nodes from the values they evaluate to, unless one of these fails or has none. -/
def spelled? (nodes : List Node) (values : List Value) : Option String := do
  (flattenNodes nodes (← Value.computedItems? values)).toOption

/-- The values belong to the nodes, place by place, and give them the same text. -/
structure Spelled (nodes nodes' : List Node) (values values' : List Value) : Prop where
  left : values.length = nodes.length
  right : values'.length = nodes'.length
  same : spelled? nodes values = spelled? nodes' values'

theorem flattenNodes_append {nodes : List Node} {values : List Value}
    (fits : values.length = nodes.length) (others : List Node) (more : List Value) :
    flattenNodes (nodes ++ others) (values ++ more) = do
      return (← flattenNodes nodes values) ++ (← flattenNodes others more) := by
  induction nodes generalizing values with
  | nil =>
    rw [List.length_eq_zero_iff.mp fits]
    change _ = (flattenNodes others more >>= fun text => .ok ("" ++ text))
    simp only [String.empty_append, List.nil_append]
    exact (bind_pure _).symm
  | cons node nodes ih =>
    obtain ⟨value, values, rfl⟩ := List.exists_cons_of_length_eq_add_one fits
    simp only [List.cons_append, flattenNodes, ih (Nat.succ.inj fits), bind_assoc, pure_bind,
      String.append_assoc]

theorem spelled?_append {nodes : List Node} {values : List Value}
    (fits : values.length = nodes.length) (others : List Node) (more : List Value) :
    spelled? (nodes ++ others) (values ++ more) = do
      return (← spelled? nodes values) ++ (← spelled? others more) := by
  unfold spelled?
  rw [Value.computedItems?_append]
  simp only [Option.bind_eq_bind, Option.pure_def]
  cases all : Value.computedItems? values with
  | none => rfl
  | some computed =>
    have places := (Value.length_of_computedItems? all).trans fits
    simp only [Option.bind_some]
    cases Value.computedItems? more with
    | none => cases (flattenNodes nodes computed).toOption <;> rfl
    | some computed' =>
      simp only [Option.bind_some, flattenNodes_append places]
      cases flattenNodes nodes computed with
      | error _ => rfl
      | ok _ => cases flattenNodes others computed' <;> rfl

/-- The values of nodes have the text that they have as items, or the same fault at a node. -/
theorem flattenNodes_of_flattenItems {nodes : List Node} {values : List Value}
    (fits : values.length = nodes.length) :
    match Value.flattenItems values with
    | .ok text => flattenNodes nodes values = .ok text
    | .error fault => ∃ node ∈ nodes,
        flattenNodes nodes values = .error (.serialize fault node.source) := by
  induction nodes generalizing values with
  | nil =>
    rw [List.length_eq_zero_iff.mp fits]
    rfl
  | cons node nodes ih =>
    obtain ⟨value, values, rfl⟩ := List.exists_cons_of_length_eq_add_one fits
    have others := ih (Nat.succ.inj fits)
    rw [Value.flattenItems, flattenNodes]
    cases value.flatten with
    | error fault => exact ⟨node, List.mem_cons_self, rfl⟩
    | ok text =>
      generalize Value.flattenItems values = result at others ⊢
      cases result with
      | ok more =>
        rw [others]
        rfl
      | error fault =>
        obtain ⟨other, member, same⟩ := others
        rw [same]
        exact ⟨other, List.mem_cons_of_mem _ member, rfl⟩

/-- The text of nodes is that of their values as items; only faults differ. -/
theorem flattenNodes_toOption {nodes : List Node} {values : List Value}
    (fits : values.length = nodes.length) :
    (flattenNodes nodes values).toOption = (Value.flattenItems values).toOption := by
  have same := flattenNodes_of_flattenItems fits
  generalize Value.flattenItems values = result at same ⊢
  cases result with
  | ok text =>
    rw [same]
    rfl
  | error fault =>
    obtain ⟨node, -, failed⟩ := same
    rw [failed]
    rfl

theorem Spelled.append {a a' b b' : List Node} {vs vs' ws ws' : List Value}
    (first : Spelled a a' vs vs') (second : Spelled b b' ws ws') :
    Spelled (a ++ b) (a' ++ b') (vs ++ ws) (vs' ++ ws') where
  left := by rw [List.length_append, List.length_append, first.left, second.left]
  right := by rw [List.length_append, List.length_append, first.right, second.right]
  same := by
    rw [spelled?_append first.left, spelled?_append first.right, first.same, second.same]

/-! ## Evaluating the nodes -/

theorem Scope.renderAll_append (scope : Scope) (nodes others : List Node) :
    scope.renderAll (nodes ++ others) = do
      return (← scope.renderAll nodes) ++ (← scope.renderAll others) := by
  induction nodes with
  | nil =>
    rw [List.nil_append]
    unfold renderAll
    simp
  | cons node nodes ih =>
    rw [List.cons_append, renderAll, renderAll, ih]
    simp

theorem Attempt.runs_andThen {α β : Type} {may : Store → Store → Prop} {r : Attempt α}
    {f : α → Attempt β} {s after : Store} {b : β} (run : Runs may (r.andThen f) s (.ok b) after) :
    ∃ a middle, Runs may r s (.ok a) middle ∧ Runs may (f a) middle (.ok b) after := by
  obtain ⟨result, middle, first, second⟩ := run.of_bind
  cases result with
  | error why => cases second
  | ok a => exact ⟨a, middle, first, second⟩

/-- Evaluating nodes gives a value for each of them. -/
theorem Scope.length_of_renderAll {scope : Scope} {may : Store → Store → Prop} {nodes : List Node}
    {values : List Value} {data left : Value} {s after : Store}
    (run : Runs may ((scope.renderAll nodes).outcome data) s (.ok (values, left)) after) :
    values.length = nodes.length := by
  induction nodes generalizing data s values with
  | nil =>
    unfold renderAll at run
    cases run
    rfl
  | cons node nodes ih =>
    unfold renderAll at run
    rw [Evaluation.outcome_bind] at run
    obtain ⟨_, _, _, run⟩ := Attempt.runs_andThen run
    rw [Evaluation.outcome_bind] at run
    obtain ⟨_, _, others, run⟩ := Attempt.runs_andThen run
    cases run
    exact congrArg (· + 1) (ih others)

/-- Every value is as its node ensures. -/
theorem Scope.renderAll_ensures {scope : Scope} {P : Node → Value → Prop} {nodes : List Node}
    (each : ∀ node ∈ nodes, (scope.render node).Ensures (P node)) :
    (scope.renderAll nodes).Ensures (List.Forall₂ P nodes) := by
  induction nodes with
  | nil =>
    unfold renderAll
    exact .pure .nil
  | cons node nodes ih =>
    obtain ⟨first, others⟩ := List.forall_mem_cons.mp each
    unfold renderAll
    refine first.bind fun value holds => ?_
    exact (ih others).bind fun values all => .pure (.cons holds all)

/-- Resolves the values of nodes and puts them together. -/
def spell (nodes : List Node) (values : List Value) : Attempt String :=
  Attempt.andThen (Routine.joinAll (Value.resolveItems values)) fun computed =>
    .of (flattenNodes nodes computed)

theorem finished_eq (nodes : List Node) (values : Evaluation (List Value)) :
    finished nodes values = values >>= fun values => Evaluation.ofAttempt (spell nodes values) := by
  unfold finished spell
  refine congrArg _ (funext fun values => ?_)
  rw [Evaluation.ofAttempt_andThen]

theorem Scope.serialize_singleton (scope : Scope) (node : Node) :
    scope.serialize [node] = scope.render node >>= fun value =>
      Evaluation.ofAttempt (spell [node] [value]) := by
  rw [Scope.serialize, finished_eq, Scope.renderAll, Scope.renderAll]
  simp only [bind_assoc, pure_bind]

theorem spell_null (node : Node) : spell [node] [.null] = .of (.ok "") := by
  unfold spell
  rw [Value.resolveItems, Value.resolveItems, Routine.joinAll_singleton]
  rfl

theorem spell_eq_bind (nodes : List Node) (values : List Value) : spell nodes values =
    (Routine.joinAll (Value.resolveItems values)).bind fun joined =>
      .done (joined >>= flattenNodes nodes) := by
  unfold spell Attempt.andThen
  refine congrArg _ (funext fun joined => ?_)
  cases joined <;> rfl

/-- The values of a body are resolved in an array as they are one beside the other. -/
theorem spell_block (node : Node) (values : List Value) : spell [node] [.array values] =
    (Routine.joinAll (Value.resolveItems values)).bind fun joined =>
      .done (joined >>= fun computed => flattenNodes [node] [.array computed]) := by
  rw [spell_eq_bind, Value.resolveItems, Value.resolveItems, Value.resolve,
    Routine.joinAll_singleton, Attempt.map, Routine.bind_assoc, Routine.bind_assoc]
  refine congrArg _ (funext fun joined => ?_)
  cases joined <;> rfl

theorem spell_assured {I : Store → Prop} (lasting : Store.Lasting I) (nodes : List Node)
    (values : List Value) :
    Assured I (fun result => result.toOption = spelled? nodes values) (spell nodes values) := by
  apply (Value.joinAll_resolveItems_assured lasting values).bind
  unfold spelled?
  intro result same
  rw [← same]
  cases result <;> exact .done rfl

/-! ## Success that carries over -/

section Transfers

variable {I : Store → Prop} {lasting : Store.Lasting I} {D : Value → Value → Prop}
  {kept : Value.KeptByAccess D} {x y : Scope} {nodes nodes' : List Node}

/-- Scopes that transfer give the same nodes values that spell the same. -/
theorem renderAll_spelled (scopes : (Comparison.transfers lasting kept).Scopes x y)
    (like : Node.LikeAll (Comparison.transfers lasting kept).Hosts nodes nodes') :
    (Comparison.transfers lasting kept).Related (Spelled nodes nodes') (x.renderAll nodes)
      (y.renderAll nodes') := by
  intro data data' same
  have related := Scope.renderAll_related scopes like data data' same
  refine ⟨related.ends, ?_⟩
  rintro ⟨values, after⟩ possible
  apply (related.carries _ possible).mono
  rintro _ ⟨⟨values', after'⟩, rfl, alike, same⟩
  obtain ⟨_, _, _, run⟩ := possible
  have left := Scope.length_of_renderAll run
  refine ⟨_, rfl, ⟨left, ?_, ?_⟩, same⟩
  · rw [← alike.length_eq, left, like.length_eq]
  · unfold spelled?
    rw [Value.computedItems?_congr alike]
    exact bind_congr fun computed => by rw [flattenNodes_like like]

/-- Nodes whose values spell the same have the same text. -/
theorem finished_spelled {values values' : Evaluation (List Value)}
    (same : (Comparison.transfers lasting kept).Related (Spelled nodes nodes') values values') :
    (Comparison.transfers lasting kept).Related Eq (finished nodes values)
      (finished nodes' values') := by
  rw [finished_eq, finished_eq]
  apply same.bind
  intro vs ws spelled
  apply Related.ofAttempt
  have right := spell_assured lasting nodes' ws
  rw [← spelled.same] at right
  exact .of_toOption (spell_assured lasting nodes vs) right fun _ _ => rfl

theorem renderAll_append_spelled {others others' : List Node}
    (first : (Comparison.transfers lasting kept).Related (Spelled nodes nodes')
      (x.renderAll nodes) (y.renderAll nodes'))
    (second : (Comparison.transfers lasting kept).Related (Spelled others others')
      (x.renderAll others) (y.renderAll others')) :
    (Comparison.transfers lasting kept).Related (Spelled (nodes ++ others) (nodes' ++ others'))
      (x.renderAll (nodes ++ others)) (y.renderAll (nodes' ++ others')) := by
  rw [Scope.renderAll_append, Scope.renderAll_append]
  apply first.bind
  intro vs vs' spelled
  exact second.bind fun ws ws' spelled' => .pure (spelled.append spelled')

end Transfers

end Stencil
