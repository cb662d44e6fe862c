import Stencil.Proofs.Rendering.Steady

/-! # One sibling after the other

A template is rendered in three passes: all its nodes are evaluated, then what they left deferred is
resolved together, and then the values are put together to a text. Only the first pass looks at the
data. So with steady tags it makes no difference where a list of nodes is cut in two: the second
part can be rendered for itself once the first has been, on the data that this left behind.
-/

namespace Stencil

open Comparison (Related)
open Routine (Assured Outcome)

variable {α β : Type} {I : Store → Prop} {lasting : Store.Lasting I} {scope : Scope} {s t : Store}
  {data : Value}

/-! ## Evaluations that go on alone -/

namespace Evaluation

/-- What an evaluation has come to, with the data that it left, unless it has failed. -/
def success? : Except Error α × Value → Option (α × Value)
  | (.ok a, left) => some (a, left)
  | (.error _, _) => none

/-- What an evaluation comes to from a store when nobody goes on beside it. -/
def alone? (e : Evaluation α) (data : Value) (s : Store) : Option (α × Value) :=
  success? ((e.runOn data).run s).1

theorem success?_eq (ended : Except Error α × Value) :
    success? ended = (ended.1.map (·, ended.2)).toOption := by
  obtain ⟨result, left⟩ := ended
  cases result <;> rfl

theorem alone?_eq (e : Evaluation α) (data : Value) (s : Store) :
    e.alone? data s = ((e.outcome data).run s).1.toOption := by
  rw [alone?, success?_eq, outcome, Routine.run_bind]
  rfl

theorem success?_eq_some_iff {ended : Except Error α × Value} {a : α} {left : Value} :
    success? ended = some (a, left) ↔ ended = (.ok a, left) := by
  obtain ⟨result, after⟩ := ended
  cases result <;> simp [success?]

/-- Alone an evaluation comes to a value just when its run succeeds. -/
theorem alone?_eq_some_iff {e : Evaluation α} {a : α} {left : Value} :
    e.alone? data s = some (a, left) ↔ ((e.runOn data).run s).1 = (.ok a, left) :=
  success?_eq_some_iff

/-- A steady evaluation comes to the same from every store, whatever others do meanwhile. -/
theorem outcome_assured {e : Evaluation α}
    (steady : (Comparison.concurring lasting).Related Eq e e) (kept : I s) :
    Assured I (fun result => result.toOption = e.alone? data s) (e.outcome data) := by
  refine (Attempt.Concur.assured (steady data data rfl) kept).mono fun result same => ?_
  rw [alone?_eq]
  generalize result.toOption = given at same ⊢
  generalize Except.toOption _ = given' at same ⊢
  cases same with
  | none => rfl
  | some same => rw [Prod.ext same.1 same.2]

/-- In any company a steady evaluation ends as it does alone. -/
theorem runOn_assured_alone {e : Evaluation α}
    (steady : (Comparison.concurring lasting).Related Eq e e) (kept : I s) :
    Assured I (fun ended => success? ended = e.alone? data s) (e.runOn data) :=
  (runOn_assured (outcome_assured steady kept)).mono fun ended same => by rwa [success?_eq]

/-- How a steady evaluation ends alone does not depend on the store. -/
theorem alone?_congr {e : Evaluation α} (steady : (Comparison.concurring lasting).Related Eq e e)
    (kept : I s) (kept' : I t) : e.alone? data t = e.alone? data s :=
  (runOn_assured_alone steady kept t kept').run.1

/-- What a steady evaluation comes to alone it comes to in any case. -/
theorem settled_assured {e : Evaluation α} {a : α} {left : Value}
    (steady : (Comparison.concurring lasting).Related Eq e e) (kept : I s)
    (ended : e.alone? data s = some (a, left)) :
    Assured I (· = (.ok a, left)) (e.runOn data) := by
  refine (runOn_assured_alone steady kept).mono fun one same => ?_
  rw [ended] at same
  exact success?_eq_some_iff.mp same

theorem assured_bind {e : Evaluation α} {f : α → Evaluation β} {a : α} {left : Value}
    {P : Except Error β × Value → Prop} (first : Assured I (· = (.ok a, left)) (e.runOn data))
    (next : Assured I P ((f a).runOn left)) : Assured I P ((e >>= f).runOn data) := by
  rw [runOn_bind]
  refine first.bind ?_
  rintro _ rfl
  exact next

/-- What goes on steadily after an evaluation may as well start from the store at the beginning. -/
theorem alone?_bind {e : Evaluation α} {f : α → Evaluation β}
    (keeps : Assured I (fun _ => True) (e.outcome data))
    (steady : ∀ a, (Comparison.concurring lasting).Related Eq (f a) (f a)) (kept : I s) :
    (e >>= f).alone? data s = (e.alone? data s).bind fun p => (f p.1).alone? p.2 s := by
  obtain ⟨-, left⟩ := (keeps s kept).run
  rw [alone?_eq, outcome_bind, Attempt.andThen, Routine.run_bind, alone?_eq]
  generalize (e.outcome data).run s = ended at left ⊢
  obtain ⟨result, after⟩ := ended
  cases result with
  | error why => rfl
  | ok p =>
    have same : (f p.1).alone? p.2 after = (f p.1).alone? p.2 s :=
      alone?_congr (steady p.1) kept left
    rwa [alone?_eq] at same

end Evaluation

open Evaluation (alone? success?)

/-! ## Rendering by parts -/

theorem Comparison.val_self {C : Comparison} (values : List Value) :
    List.Forall₂ C.Val values values := List.forall₂_same.mpr fun value _ => C.refl value

theorem spell_steady (lasting : Store.Lasting I) (nodes : List Node) {values values' : List Value}
    (same : List.Forall₂ (Comparison.concurring lasting).Val values values') :
    (Comparison.concurring lasting).Related Eq (Evaluation.ofAttempt (spell nodes values))
      (Evaluation.ofAttempt (spell nodes values')) := by
  have spelled : spelled? nodes values = spelled? nodes values' := by
    unfold spelled?
    rw [Value.computedItems?_congr same]
  have right := spell_assured lasting nodes values'
  rw [← spelled] at right
  exact .ofAttempt (Attempt.Concur.of_toOption (spell_assured lasting nodes values) right)

/-- Spelling alone gives the text of the values. -/
theorem alone?_spell (nodes : List Node) (values : List Value) (data : Value) (s : Store) :
    alone? (Evaluation.ofAttempt (spell nodes values)) data s =
      (spelled? nodes values).map (·, data) := by
  have spelled := (spell_assured Store.lasting_true nodes values s trivial).run.1
  rw [Evaluation.alone?_eq, Evaluation.outcome_ofAttempt, Attempt.andThen, Routine.run_bind,
    ← spelled]
  cases ((spell nodes values).run s).1 <;> rfl

namespace Scope.Steady

variable (steady : scope.Steady lasting) (kept : I s)
include steady kept

/-- Nodes are evaluated, and then their values are put together. -/
theorem alone?_serialize (nodes : List Node) (data : Value) :
    (scope.serialize nodes).alone? data s = ((scope.renderAll nodes).alone? data s).bind fun p =>
      (spelled? nodes p.1).map (·, p.2) := by
  have keeps := (steady.renderAll nodes data data rfl).1.ends
  rw [Scope.serialize, finished_eq,
    Evaluation.alone?_bind keeps
      (fun values => spell_steady lasting nodes (Comparison.val_self values)) kept]
  simp only [alone?_spell]

/-- Every node has one value. -/
theorem length_of_alone? {nodes : List Node} {data : Value} {p : List Value × Value}
    (evaluated : (scope.renderAll nodes).alone? data s = some p) : p.1.length = nodes.length := by
  have run := ((steady.renderAll nodes data data rfl).1.ends s kept).runs_run
  rw [Evaluation.alone?_eq] at evaluated
  generalize ((scope.renderAll nodes).outcome data).run s = ended at run evaluated
  obtain ⟨result, after⟩ := ended
  cases result with
  | error why => cases evaluated
  | ok values =>
    cases evaluated
    exact length_of_renderAll run

/-- A list of nodes is rendered as its two parts are, the second on the data that the first left. -/
theorem alone?_append (nodes others : List Node) (data : Value) :
    (scope.serialize (nodes ++ others)).alone? data s =
      ((scope.serialize nodes).alone? data s).bind fun (first, middle) =>
        ((scope.serialize others).alone? middle s).map fun (second, after) =>
          (first ++ second, after) := by
  have keeps (nodes : List Node) (data : Value) :=
    (steady.renderAll nodes data data rfl).1.ends
  have ended (values : List Value) : (Comparison.concurring lasting).Related Eq
      (scope.renderAll others >>= fun more =>
        Evaluation.ofAttempt (spell (nodes ++ others) (values ++ more)))
      (scope.renderAll others >>= fun more =>
        Evaluation.ofAttempt (spell (nodes ++ others) (values ++ more))) :=
    (steady.renderAll others).bind fun _ _ same =>
      spell_steady lasting _ (List.rel_append (Comparison.val_self values) same)
  have parts : scope.serialize (nodes ++ others) = scope.renderAll nodes >>= fun values =>
      scope.renderAll others >>= fun more =>
        Evaluation.ofAttempt (spell (nodes ++ others) (values ++ more)) := by
    rw [Scope.serialize, finished_eq, renderAll_append]
    simp only [bind_assoc, pure_bind]
  rw [parts, Evaluation.alone?_bind (keeps nodes data) ended kept, alone?_serialize steady kept]
  cases evaluated : (scope.renderAll nodes).alone? data s with
  | none => rfl
  | some p =>
    obtain ⟨values, middle⟩ := p
    have fits := steady.length_of_alone? kept evaluated
    rw [Option.bind_some, Option.bind_some, Evaluation.alone?_bind (keeps others middle)
      (fun more => spell_steady lasting _ (Comparison.val_self (values ++ more))) kept]
    simp only [alone?_spell, spelled?_append fits]
    cases spelled? nodes values with
    | none => simp
    | some first =>
      simp only [Option.map_some, Option.bind_some, alone?_serialize steady kept others]
      cases (scope.renderAll others).alone? middle s with
      | none => rfl
      | some q =>
        rw [Option.bind_some, Option.bind_some]
        cases spelled? others q.1 <;> rfl

theorem alone?_nil (data : Value) : (scope.serialize []).alone? data s = some ("", data) := by
  rw [alone?_serialize steady kept, Scope.renderAll]
  rfl

/-- Nodes are rendered one after the other, each for itself on the data that those before it left.
-/
theorem alone?_foldlM (nodes : List Node) (data : Value) :
    (scope.serialize nodes).alone? data s =
      nodes.foldlM (fun (text, data) node =>
        ((scope.serialize [node]).alone? data s).map fun (more, after) => (text ++ more, after))
        ("", data) := by
  have continued (text : String) : ((scope.serialize nodes).alone? data s).map
      (fun (more, after) => (text ++ more, after)) =
      nodes.foldlM (fun (text, data) node =>
        ((scope.serialize [node]).alone? data s).map fun (more, after) => (text ++ more, after))
        (text, data) := by
    induction nodes generalizing text data with
    | nil =>
      rw [alone?_nil steady kept]
      simp
    | cons node rest ih =>
      rw [List.foldlM_cons, ← List.singleton_append, alone?_append steady kept]
      simp only [Option.bind_eq_bind, ← ih]
      cases (scope.serialize [node]).alone? data s with
      | none => rfl
      | some p => simp [String.append_assoc, Function.comp_def]
  rw [← continued ""]
  simp

end Scope.Steady

namespace Renderer

variable {renderer : Renderer}

/-- Rendering is a homomorphism that threads the data. With steady tags what nodes are rendered to
is told by the data and by what the store supplies, however others interrupt it. A list of nodes
succeeds exactly when its first part does, and then its second on the data that the first left; the
text is that of the two parts in this order, and the data afterwards are those of the second. So
each sibling sees the writes of all before it and of none after it. The parts can as well be
rendered one after the other, the second from the store that the first left behind. -/
theorem serialize_append {scope : Scope} (provided : renderer.Provides scope)
    (steady : renderer.SteadyTags s) (data : Value) :
    (∀ nodes, Assured (renderer.Agrees s)
      (fun ended => success? ended = (scope.serialize nodes).alone? data s)
      ((scope.serialize nodes).runOn data)) ∧
    (∀ nodes others, (scope.serialize (nodes ++ others)).alone? data s =
      ((scope.serialize nodes).alone? data s).bind fun (first, middle) =>
        ((scope.serialize others).alone? middle s).map fun (second, after) =>
          (first ++ second, after)) ∧
    (∀ nodes, (scope.serialize nodes).alone? data s =
      nodes.foldlM (fun (text, data) node =>
        ((scope.serialize [node]).alone? data s).map fun (more, after) => (text ++ more, after))
        ("", data)) ∧
    ∀ nodes others text after,
      (((scope.serialize (nodes ++ others)).runOn data).run s).1 = (.ok text, after) ↔
        ∃ first middle second left,
          ((scope.serialize nodes).runOn data).run s = ((.ok first, middle), left) ∧
            (((scope.serialize others).runOn middle).run left).1 = (.ok second, after) ∧
            text = first ++ second := by
  have inside := provided.steady steady
  have kept := Agrees.refl renderer s
  refine ⟨fun nodes => Evaluation.runOn_assured_alone (inside.serialize nodes) kept,
    fun nodes others => inside.alone?_append kept nodes others data,
    fun nodes => inside.alone?_foldlM kept nodes data, ?_⟩
  intro nodes others text after
  have keeps : renderer.Agrees s (((scope.serialize nodes).runOn data).run s).2 :=
    (Evaluation.runOn_assured_alone (inside.serialize nodes) kept s kept).run.2
  have later (middle : Value) : (scope.serialize others).alone? middle _ =
      (scope.serialize others).alone? middle s :=
    Evaluation.alone?_congr (inside.serialize others) kept keeps
  rw [← Evaluation.alone?_eq_some_iff, inside.alone?_append kept]
  constructor
  · intro ended
    obtain ⟨⟨first, middle⟩, one, rest⟩ := Option.bind_eq_some_iff.mp ended
    obtain ⟨⟨second, left⟩, other, same⟩ := Option.map_eq_some_iff.mp rest
    cases same
    refine ⟨first, middle, second, _, Prod.ext (Evaluation.alone?_eq_some_iff.mp one) rfl, ?_, rfl⟩
    rw [← Evaluation.alone?_eq_some_iff, later middle, other]
  · rintro ⟨first, middle, second, left, one, other, rfl⟩
    have first? := Evaluation.alone?_eq_some_iff.mpr (congrArg Prod.fst one)
    have second? := Evaluation.alone?_eq_some_iff.mpr other
    rw [one] at later
    rw [later] at second?
    simp only [first?, Option.bind_some, second?, Option.map_some]

/-- Two templates one behind the other, the second of which reads what the first writes. -/
theorem serialize_append_written :
    let renderer := { Renderer.plaintext (.memory []) with tags := Tags.withProbes Tags.builtin }
    let source : Source := ⟨"t", 0, 0, 0, 0, []⟩
    let name : Node := .literal source (.string "x")
    let text : Node := .literal source (.string "b")
    let read : Node := .tag source "get" [.identifier source ⟨[.key "x"]⟩] none
    let late : Node := .tag source "defer" [.literal source (.int 2), text] none
    let write : Node := .tag source "set" [name, text] none
    renderer.SteadyTags .empty ∧
      ((renderer.scopeAt 0).serialize ([read, late, write] ++ [read])).alone? (.map []) .empty =
        some ("bb", .map [("x", .string "b")]) := by
  intro renderer source name text read late write
  have steady : renderer.SteadyTags .empty := steadyTags_of_probes rfl .empty
  obtain ⟨-, append, -, -⟩ := serialize_append (.within 0) steady (.map [])
  have first : ((renderer.scopeAt 0).serialize [read, late, write]).alone? (.map []) .empty =
      some ("b", .map [("x", .string "b")]) :=
    Evaluation.alone?_eq_some_iff.mpr (by rfl)
  have second : ((renderer.scopeAt 0).serialize [read]).alone? (.map [("x", .string "b")]) .empty =
      some ("b", .map [("x", .string "b")]) :=
    Evaluation.alone?_eq_some_iff.mpr (by rfl)
  refine ⟨steady, ?_⟩
  rw [append, first, Option.bind_some]
  dsimp only
  rw [second]
  rfl

end Renderer

end Stencil
