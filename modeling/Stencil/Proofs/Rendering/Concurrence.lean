import Stencil.Proofs.Rendering.Transfer

/-! # Attempts that concur

Two attempts concur when each of them transfers to the other: they succeed together or fail
together, with related results, however either is interrupted. An attempt that concurs with itself
is told by what it computes and by the condition that others keep, and not by when it goes on. What
templates are evaluated with concurs part by part, as it does for every comparison that is made both
ways.
-/

namespace Stencil

open Routine (Assured Outcome)

variable {α β : Type} {I : Store → Prop} {V : α → β → Prop} {r : Attempt α} {q : Attempt β}

theorem forall₂_swap (V : α → β → Prop) :
    (fun (bs : List β) (as : List α) => List.Forall₂ V as bs) =
      List.Forall₂ fun b a => V a b := by
  ext bs as
  exact ⟨.flip, .flip⟩

/-- Comparing both ways, on values that compare both ways already. -/
def Comparison.bothWays (C : Comparison) (symm : ∀ {v w : Value}, C.Val v w → C.Val w v) :
    Comparison where
  Rel V r q := C.Rel V r q ∧ C.Rel (fun b a => V a b) q r
  Val := C.Val
  Data := C.Data
  ok same := ⟨C.ok same, C.ok same⟩
  error why := ⟨C.error why, C.error why⟩
  andThen first next :=
    ⟨C.andThen first.1 fun a b same => (next a b same).1,
      C.andThen first.2 fun b a same => (next a b same).2⟩
  joinAll each := by
    refine ⟨C.joinAll (each.imp fun _ _ both => both.1), ?_⟩
    rw [forall₂_swap]
    exact C.joinAll (each.flip.imp fun _ _ both => both.2)
  resolve same := by
    refine ⟨C.resolve same, ?_⟩
    simp only [eq_comm]
    exact C.resolve (symm same)
  refl := C.refl
  array := C.array
  get := C.get
  derive := C.derive
  trySet := C.trySet

/-- Evaluations that succeed together or fail together on one and the same data, with values that
compute to the same, while others keep a condition on stores. -/
def Comparison.concurring (lasting : Store.Lasting I) : Comparison :=
  (transfers lasting Value.keptByAccess_eq).bothWays Eq.symm

namespace Attempt

/-- Each of the attempts transfers to the other, with results that are related. -/
def Concur (I : Store → Prop) (V : α → β → Prop) (r : Attempt α) (q : Attempt β) : Prop :=
  Transfers I V r q ∧ Transfers I (fun b a => V a b) q r

namespace Concur

/-- Attempts concur when they are sure to end in ways that go together. -/
theorem of_assured {P : Except Error α → Prop} {Q : Except Error β → Prop} (left : Assured I P r)
    (right : Assured I Q q)
    (related : ∀ x y, P x → Q y → Option.Rel V x.toOption y.toOption) : Concur I V r q := by
  refine ⟨⟨left.mono fun _ _ => trivial, fun a possible => right.mono fun y ended => ?_⟩,
    ⟨right.mono fun _ _ => trivial, fun b possible => left.mono fun x ended => ?_⟩⟩
  · have same := related _ _ (left.of_outcome possible) ended
    cases y with
    | error why => cases same
    | ok b =>
      cases same with
      | some same => exact ⟨b, rfl, same⟩
  · have same := related _ _ ended (right.of_outcome possible)
    cases x with
    | error why => cases same
    | ok a =>
      cases same with
      | some same => exact ⟨a, rfl, same⟩

/-- Attempts that come to one answer concur. -/
theorem of_toOption {o : Option α} {r q : Attempt α}
    (left : Assured I (fun result => result.toOption = o) r)
    (right : Assured I (fun result => result.toOption = o) q) : Concur I Eq r q :=
  ⟨.of_toOption left right fun _ _ => rfl, .of_toOption right left fun _ _ => rfl⟩

/-- Whatever attempts that concur end with, both have succeeded or both have failed. -/
theorem ended (concur : Concur I V r q) {x : Except Error α} {y : Except Error β}
    (possible : Outcome I r x) (possible' : Outcome I q y) :
    Option.Rel V x.toOption y.toOption := by
  cases x with
  | ok a =>
    obtain ⟨b, rfl, same⟩ := (concur.1.carries a possible).of_outcome possible'
    exact .some same
  | error why =>
    cases y with
    | error why' => exact .none
    | ok b =>
      obtain ⟨a, wrong, _⟩ := (concur.2.carries b possible').of_outcome possible
      cases wrong

/-- However the first attempt is interrupted, it ends as the second does when left alone. -/
theorem assured (concur : Concur I V r q) {s : Store} (kept : I s) :
    Assured I (fun x => Option.Rel V x.toOption (q.run s).1.toOption) r :=
  concur.1.ends.outcome.mono fun _ possible =>
    concur.ended possible (concur.2.ends.outcome_run kept)

end Concur

end Attempt

end Stencil
