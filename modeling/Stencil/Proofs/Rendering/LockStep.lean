import Stencil.Proofs.Rendering.Comparison

/-! # Attempts in lock step

Two attempts go the same way up to a relation of stores when they pause and end together, with one
failure or with related results. What templates are evaluated with keeps this, as long as the
relation is kept by waiting for a pending value, so it is a comparison of evaluations.
-/

namespace Stencil

open Routine (Ended Similar)

variable {α β : Type} {R : Store → Store → Prop}

/-- Related stores agree on how often a pending value was served, and stay related when it is
served or ends. -/
structure Store.KeptByWaiting (R : Store → Store → Prop) : Prop where
  served {s t : Store} (related : R s t) (handle : Handle) :
    (s.progressOf handle).served = (t.progressOf handle).served
  serve {s t : Store} (related : R s t) (handle : Handle) : R (s.serve handle) (t.serve handle)
  finish {s t : Store} (related : R s t) (handle : Handle) (note : Option String) :
    R (s.finish handle note) (t.finish handle note)

/-- Attempts in lock step go on in lock step. -/
theorem Attempt.andThen_similar {α' β' : Type} {V : α → β → Prop} {W : α' → β' → Prop}
    {r : Attempt α} {q : Attempt β} {f : α → Attempt α'} {g : β → Attempt β'}
    (first : Similar R (Ended V) r q) (next : ∀ a b, V a b → Similar R (Ended W) (f a) (g b)) :
    Similar R (Ended W) (r.andThen f) (q.andThen g) := by
  apply first.bind
  intro result result' same
  cases same with
  | ok same => exact next _ _ same
  | error why => exact .done (.error why)

theorem Attempt.map_similar {V : α → α → Prop} {f : α → β} {r q : Attempt α}
    (first : Similar R (Ended V) r q) (same : ∀ a b, V a b → f a = f b) :
    Similar R (Ended Eq) (r.map f) (q.map f) := by
  apply first.bind
  intro result result' related
  apply Similar.done
  cases related with
  | ok related => exact .ok (same _ _ related)
  | error why => exact .error why

/-! ## Attempts to resolve -/

namespace Value

variable (kept : Store.KeptByWaiting R)
include kept

/-- Both wait for as many suspensions. -/
theorem waitFor_similar (handle : Handle) (delay patience : Nat) :
    Similar R Eq (waitFor handle delay patience) (waitFor handle delay patience) := by
  induction patience with
  | zero => exact .done rfl
  | succ patience ih =>
    intro s t related
    unfold waitFor
    apply Routine.Sim.readLeft
    apply Routine.Sim.readRight
    rw [kept.served related handle]
    split
    · exact .writeLeft (.writeRight (.pause (kept.serve related handle) ih))
    · exact .done rfl related

theorem await_similar (handle : Handle) (delay : Nat) (note : Option String) :
    Similar R Eq (await handle delay note) (await handle delay note) := by
  apply Similar.bind (waitFor_similar kept handle delay delay)
  intro _ _ _
  apply Similar.step
  · exact fun _ _ _ => rfl
  · exact fun s t related => kept.finish related handle note

end Value

namespace Value

mutual

/-- Both resolve a value in lock step. -/
theorem resolve_similar (kept : Store.KeptByWaiting R) :
    ∀ value : Value, Similar R (Ended Eq) value.resolve value.resolve
  | null | bool _ | int _ | float _ | string _ | bytes _ => by
    unfold resolve
    exact .done (.ok rfl)
  | pending handle delay note (.ok value) => by
    unfold resolve
    exact (await_similar kept handle delay note).bind fun _ _ _ => resolve_similar kept value
  | pending handle delay note (.error e) => by
    unfold resolve
    exact (await_similar kept handle delay note).bind fun _ _ _ => .done (.error e)
  | lazy _ value => by
    unfold resolve
    exact resolve_similar kept value
  | array items => by
    unfold resolve
    apply Attempt.map_similar (Similar.joinAll (resolveItems_similar kept items))
    intro vs ws same
    rw [List.forall₂_eq_eq_eq] at same
    rw [same]
  | map entries => by
    unfold resolve
    apply Attempt.map_similar (Similar.joinAll (resolveEntries_similar kept entries))
    intro vs ws same
    rw [List.forall₂_eq_eq_eq] at same
    rw [same]

theorem resolveItems_similar (kept : Store.KeptByWaiting R) : ∀ items : List Value,
    List.Forall₂ (Similar R (Ended Eq)) (resolveItems items) (resolveItems items)
  | [] => .nil
  | item :: rest => by
    unfold resolveItems
    exact .cons (resolve_similar kept item) (resolveItems_similar kept rest)

theorem resolveEntries_similar (kept : Store.KeptByWaiting R) :
    ∀ entries : List (String × Value),
      List.Forall₂ (Similar R (Ended Eq)) (resolveEntries entries) (resolveEntries entries)
  | [] => .nil
  | (key, item) :: rest => by
    unfold resolveEntries
    refine .cons (Attempt.map_similar (resolve_similar kept item) ?_)
      (resolveEntries_similar kept rest)
    rintro v _ rfl
    rfl

end

end Value

/-- Attempts in lock step over related stores, on the same values and data. -/
def Comparison.lockStep (kept : Store.KeptByWaiting R) : Comparison where
  Rel V r q := Similar R (Ended V) r q
  Val := Eq
  Data := Eq
  ok same := .done (.ok same)
  error why := .done (.error why)
  andThen := Attempt.andThen_similar
  joinAll := Similar.joinAll
  resolve same := same ▸ Value.resolve_similar kept _
  refl _ := rfl
  array same := by
    rw [List.forall₂_eq_eq_eq] at same
    rw [same]
  get same path := by rw [same]
  derive same bindings := by rw [same]
  trySet {x y} same path written := by
    subst same
    exact .refl .refl _

end Stencil
