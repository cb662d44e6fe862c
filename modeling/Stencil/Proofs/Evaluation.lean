import Stencil.Evaluation
import Stencil.Proofs.Routine.Outcomes

/-! # Laws of evaluations

An evaluation on some data is a routine. What a sequence of evaluations does is told by what its
parts do; an evaluation that gives a value neither waits, nor looks at the store, nor changes the
data, and in a sequence it can be replaced by its value. What an evaluation ensures of its value
holds whatever the data is and whatever others do to the store meanwhile.
-/

namespace Stencil

theorem Attempt.andThen_assoc {α β γ : Type} (r : Attempt α) (f : α → Attempt β)
    (g : β → Attempt γ) : (r.andThen f).andThen g = r.andThen fun a => (f a).andThen g := by
  unfold Attempt.andThen
  rw [Routine.bind_assoc]
  refine congrArg _ (funext ?_)
  intro result
  cases result <;> rfl

namespace Evaluation

variable {α β : Type} {data : Value}

/-- The data go from an evaluation to the next. -/
theorem runOn_bind (e : Evaluation α) (f : α → Evaluation β) :
    (e >>= f).runOn data = (e.runOn data).bind fun
      | (.ok a, after) => (f a).runOn after
      | (.error why, after) => .done (.error why, after) := by
  change Routine.bind (e.runOn data) _ = _
  refine congrArg _ (funext ?_)
  rintro ⟨result, after⟩
  cases result <;> rfl

/-- An attempt leaves the data alone. -/
theorem runOn_ofAttempt (attempt : Attempt α) :
    (ofAttempt attempt).runOn data = attempt.bind fun result => .done (result, data) := rfl

theorem ofAttempt_andThen (r : Attempt α) (f : α → Attempt β) :
    ofAttempt (r.andThen f) = ofAttempt r >>= fun a => ofAttempt (f a) := by
  funext data
  change (ofAttempt _).runOn data = (_ >>= _ : Evaluation β).runOn data
  rw [runOn_bind, runOn_ofAttempt, runOn_ofAttempt, Attempt.andThen, Routine.bind_assoc,
    Routine.bind_assoc]
  refine congrArg _ (funext ?_)
  intro result
  cases result <;> rfl

/-- Changing the result of an evaluation changes that of the attempt. -/
theorem attemptOn_map (f : α → β) (e : Evaluation α) (data : Value) :
    (return f (← e) : Evaluation β).attemptOn data =
      (e.attemptOn data).bind fun result => .done (result.map f) := by
  unfold attemptOn
  rw [runOn_bind, Routine.bind_assoc, Routine.bind_assoc]
  refine congrArg _ (funext ?_)
  rintro ⟨result, after⟩
  cases result <;> rfl

/-- On the data the evaluation is a value. -/
def Gives (e : Evaluation α) (data : Value) (a : α) : Prop := e.runOn data = .done (.ok a, data)

namespace Gives

/-- What is returned is given on any data. -/
theorem pure (a : α) : Gives (Pure.pure a) data a := rfl

theorem runOn_bind {e : Evaluation α} {a : α} (given : Gives e data a) (f : α → Evaluation β) :
    (e >>= f).runOn data = (f a).runOn data := by
  rw [Evaluation.runOn_bind, given]
  rfl

/-- Values are given one after the other. -/
theorem bind {e : Evaluation α} {f : α → Evaluation β} {a : α} {b : β} (first : Gives e data a)
    (second : Gives (f a) data b) : Gives (e >>= f) data b := (first.runOn_bind f).trans second

theorem ofAttempt {attempt : Attempt α} {a : α} (ended : attempt = .done (.ok a)) :
    Gives (Evaluation.ofAttempt attempt) data a := by
  rw [ended]
  rfl

end Gives

open Routine (Assured Outcome)

/-- Whenever the evaluation succeeds, its value is as stated. -/
def Ensures (e : Evaluation α) (P : α → Prop) : Prop :=
  ∀ data a left, Outcome (fun _ => True) (e.runOn data) (.ok a, left) → P a

namespace Ensures

variable {P : α → Prop} {Q : β → Prop} {e : Evaluation α}

theorem pure {a : α} (holds : P a) : Ensures (Pure.pure a) P := by
  intro data b left possible
  cases Routine.outcome_done possible
  exact holds

theorem imp {P' : α → Prop} (ensured : Ensures e P) (weaker : ∀ a, P a → P' a) : Ensures e P' :=
  fun data a left possible => weaker a (ensured data a left possible)

/-- Nothing is asked of the value. -/
theorem any (e : Evaluation α) : Ensures e fun _ => True := fun _ _ _ _ => trivial

/-- What the first evaluation ensures may be used for the next. -/
theorem bind {f : α → Evaluation β} (first : Ensures e P) (next : ∀ a, P a → Ensures (f a) Q) :
    Ensures (e >>= f) Q := by
  intro data b left possible
  rw [runOn_bind] at possible
  obtain ⟨⟨result, middle⟩, start, rest⟩ := (Assured.free _).outcome_bind possible
  cases result with
  | error why => cases Routine.outcome_done rest
  | ok a => exact next a (first data a middle start) middle b left rest

theorem ofAttempt {attempt : Attempt α}
    (assured : Assured (fun _ => True) (fun result => ∀ a, result = .ok a → P a) attempt) :
    Ensures (Evaluation.ofAttempt attempt) P := by
  intro data a left possible
  rw [runOn_ofAttempt] at possible
  obtain ⟨result, ended, rest⟩ := assured.outcome_bind possible
  cases Routine.outcome_done rest
  exact assured.of_outcome ended a rfl

theorem throw (why : Error) : Ensures (MonadExcept.throw why : Evaluation α) P := by
  intro data a left possible
  cases Routine.outcome_done possible

/-- An evaluation ensures its result on data of its own as well. -/
theorem attemptOn (ensured : Ensures e P) (data : Value) :
    Assured (fun _ => True) (fun result => ∀ a, result = .ok a → P a) (e.attemptOn data) := by
  refine (Assured.free (e.runOn data)).outcome.bind ?_
  rintro ⟨result, left⟩ possible
  refine .done ?_
  rintro a rfl
  exact ensured data a left possible

theorem isolated (ensured : Ensures e P) (change : Value → Value) :
    Ensures (Evaluation.isolated change e) P := by
  intro data a left possible
  obtain ⟨result, attempted, rest⟩ := (Assured.free _).outcome_bind possible
  cases Routine.outcome_done rest
  exact (ensured.attemptOn (change data)).of_outcome attempted a rfl

end Ensures

end Evaluation

end Stencil
