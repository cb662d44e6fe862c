import Mathlib.Data.List.Forall2
import Stencil.Proofs.Evaluation
import Stencil.Proofs.Routine.Outcomes
import Stencil.Proofs.Routine.Siblings
import Stencil.Render

/-! # Comparing evaluations

Rendering is put together from few parts: sequences, groups, the resolution of values, and reads and
writes of the data. A comparison is a way to relate attempts, with the values and the data they
compute with, that all these parts keep. Whatever is to be shown of every template about two
evaluations of it needs to be shown of the parts only.
-/

namespace Stencil

open Routine (Assured Ended Outcome)

variable {α β α' β' : Type}

/-- A relation of attempts, given how their results relate, together with relations of the values
that nodes evaluate to and of the data, which is kept by what templates are evaluated with. -/
structure Comparison where
  Rel : {α β : Type} → (α → β → Prop) → Attempt α → Attempt β → Prop
  Val : Value → Value → Prop
  Data : Value → Value → Prop
  ok {α β : Type} {V : α → β → Prop} {a : α} {b : β} (same : V a b) :
    Rel V (.of (.ok a)) (.of (.ok b))
  error {α β : Type} {V : α → β → Prop} (why : Error) : Rel V (.of (.error why)) (.of (.error why))
  andThen {α β α' β' : Type} {V : α → β → Prop} {W : α' → β' → Prop} {r : Attempt α} {q : Attempt β}
    {f : α → Attempt α'} {g : β → Attempt β'} (first : Rel V r q)
    (next : ∀ a b, V a b → Rel W (f a) (g b)) : Rel W (r.andThen f) (q.andThen g)
  joinAll {α β : Type} {V : α → β → Prop} {group : List (Attempt α)} {group' : List (Attempt β)}
    (each : List.Forall₂ (Rel V) group group') :
    Rel (List.Forall₂ V) (Routine.joinAll group) (Routine.joinAll group')
  resolve {v w : Value} (same : Val v w) : Rel Eq v.resolve w.resolve
  refl (v : Value) : Val v v
  array {vs ws : List Value} (same : List.Forall₂ Val vs ws) : Val (.array vs) (.array ws)
  get {x y : Value} (same : Data x y) (path : Path) : Val (x.get path) (y.get path)
  derive {x y : Value} (same : Data x y) (bindings : List (String × Value)) :
    Data (x.derive bindings) (y.derive bindings)
  trySet {x y : Value} (same : Data x y) (path : Path) (written : Value) :
    Ended Data (x.trySet path written) (y.trySet path written)

/-! ## What comes out of an evaluation -/

namespace Evaluation

/-- The result of an evaluation on some data, with the data it leaves when it succeeds. -/
def outcome (e : Evaluation α) (data : Value) : Attempt (α × Value) :=
  (e.runOn data).bind fun (result, after) => .done (result.map (·, after))

variable {data : Value}

/-- Outcomes go on with the value and the data. -/
theorem outcome_bind (e : Evaluation α) (f : α → Evaluation β) :
    (e >>= f).outcome data = (e.outcome data).andThen fun p => (f p.1).outcome p.2 := by
  unfold outcome Attempt.andThen
  rw [runOn_bind, Routine.bind_assoc, Routine.bind_assoc]
  refine congrArg _ (funext ?_)
  rintro ⟨result, after⟩
  cases result <;> rfl

theorem outcome_ofAttempt (attempt : Attempt α) :
    (ofAttempt attempt).outcome data = attempt.andThen fun a => .of (.ok (a, data)) := by
  unfold outcome Attempt.andThen
  rw [runOn_ofAttempt, Routine.bind_assoc]
  refine congrArg _ (funext ?_)
  intro result
  cases result <;> rfl

/-- An evaluation on data of its own ends as its outcome does, without the data. -/
theorem attemptOn_eq_outcome (e : Evaluation α) (data : Value) :
    e.attemptOn data = (e.outcome data).andThen fun p => .of (.ok p.1) := by
  unfold outcome attemptOn Attempt.andThen
  rw [Routine.bind_assoc]
  refine congrArg _ (funext ?_)
  rintro ⟨result, after⟩
  cases result <;> rfl

/-- A successful run is a successful outcome. -/
theorem outcome_of_runOn {I : Store → Prop} {e : Evaluation α} {a : α} {after : Value}
    (possible : Outcome I (e.runOn data) (.ok a, after)) :
    Outcome I (e.outcome data) (.ok (a, after)) := by
  obtain ⟨s, t, kept, run⟩ := possible
  exact ⟨s, t, kept, run.bind (.done _ _)⟩

theorem runOn_assured {I : Store → Prop} {P : Except Error (α × Value) → Prop} {e : Evaluation α}
    (assured : Assured I P (e.outcome data)) :
    Assured I (fun ended => P (ended.1.map (·, ended.2))) (e.runOn data) :=
  fun s kept => (assured s kept).of_map

theorem isolated_eq (change : Value → Value) (e : Evaluation α) :
    isolated change e = Evaluation.data >>= fun data => ofAttempt (e.attemptOn (change data)) := rfl

end Evaluation

/-! ## Evaluations that compare -/

namespace Comparison

variable {C : Comparison} {V : α → β → Prop} {W : α' → β' → Prop}

/-- On data that compare the evaluations do, with the data that they leave. -/
def Related (C : Comparison) (V : α → β → Prop) (e : Evaluation α) (f : Evaluation β) : Prop :=
  ∀ x y, C.Data x y → C.Rel (fun a b => V a.1 b.1 ∧ C.Data a.2 b.2) (e.outcome x) (f.outcome y)

namespace Related

theorem pure {a : α} {b : β} (same : V a b) :
    C.Related V (Pure.pure a : Evaluation α) (Pure.pure b : Evaluation β) :=
  fun _ _ data => C.ok ⟨same, data⟩

theorem throw (why : Error) :
    C.Related V (MonadExcept.throw why : Evaluation α) (MonadExcept.throw why : Evaluation β) :=
  fun _ _ _ => C.error why

theorem data : C.Related C.Data Evaluation.data Evaluation.data :=
  fun _ _ data => C.ok ⟨data, data⟩

theorem set {x y : Value} (same : C.Data x y) :
    C.Related (fun _ _ => True) (MonadStateOf.set x : Evaluation PUnit)
      (MonadStateOf.set y : Evaluation PUnit) := fun _ _ _ => C.ok ⟨trivial, same⟩

/-- Evaluations that compare go on with evaluations that compare. -/
theorem bind {e : Evaluation α} {f : Evaluation β} {next : α → Evaluation α'}
    {next' : β → Evaluation β'} (first : C.Related V e f)
    (rest : ∀ a b, V a b → C.Related W (next a) (next' b)) :
    C.Related W (e >>= next) (f >>= next') := by
  intro x y data
  rw [Evaluation.outcome_bind, Evaluation.outcome_bind]
  exact C.andThen (first x y data) fun a b same => rest _ _ same.1 _ _ same.2

theorem ofAttempt {r : Attempt α} {q : Attempt β} (same : C.Rel V r q) :
    C.Related V (Evaluation.ofAttempt r) (Evaluation.ofAttempt q) := by
  intro x y data
  rw [Evaluation.outcome_ofAttempt, Evaluation.outcome_ofAttempt]
  exact C.andThen same fun _ _ same => C.ok ⟨same, data⟩

/-- On data that compare, evaluations that compare are attempts that do. -/
theorem attemptOn {e : Evaluation α} {f : Evaluation β} (same : C.Related V e f) {x y : Value}
    (data : C.Data x y) : C.Rel V (e.attemptOn x) (f.attemptOn y) := by
  rw [Evaluation.attemptOn_eq_outcome, Evaluation.attemptOn_eq_outcome]
  exact C.andThen (same x y data) fun _ _ same => C.ok same.1

/-- On data derived with the same bindings, evaluations that compare do so. -/
theorem isolated {e : Evaluation α} {f : Evaluation β} (same : C.Related V e f)
    (bindings : List (String × Value)) :
    C.Related V (Evaluation.isolated (·.derive bindings) e)
      (Evaluation.isolated (·.derive bindings) f) := by
  rw [Evaluation.isolated_eq, Evaluation.isolated_eq]
  exact data.bind fun _ _ data => ofAttempt (same.attemptOn (C.derive data bindings))

end Related

end Comparison

end Stencil
