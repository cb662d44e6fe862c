import Stencil.Proofs.Routine.Outcomes

/-! # Routines that go the same way

Two routines over related states go the same way when they pause and end together, with related
results, and their states are related again whenever they pause or end. Between two pauses each may
read and write as it likes. While they pause others may change both states, as long as the states
stay related, so that the relation is what each routine can rely on and has to restore.
-/

namespace Stencil.Routine

variable {σ α α' β β' : Type} {R : σ → σ → Prop} {V : α → α' → Prop} {W : β → β' → Prop}

/-- From two states the routines go the same way, up to the relation of their states and that of
their results. -/
inductive Sim (R : σ → σ → Prop) (V : α → α' → Prop) : Routine σ α → σ → Routine σ α' → σ → Prop
  | done {s t : σ} {a : α} {b : α'} (same : V a b) (related : R s t) : Sim R V (done a) s (done b) t
  | pause {s t : σ} {r : Routine σ α} {q : Routine σ α'} (related : R s t)
      (goesOn : ∀ s' t', R s' t' → Sim R V r s' q t') : Sim R V (pause r) s (pause q) t
  | readLeft {s t : σ} {next : σ → Routine σ α} {q : Routine σ α'}
      (rest : Sim R V (next s) s q t) : Sim R V (read next) s q t
  | writeLeft {s s' t : σ} {r : Routine σ α} {q : Routine σ α'}
      (rest : Sim R V r s' q t) : Sim R V (write s' r) s q t
  | readRight {s t : σ} {r : Routine σ α} {next : σ → Routine σ α'}
      (rest : Sim R V r s (next t) t) : Sim R V r s (read next) t
  | writeRight {s t t' : σ} {r : Routine σ α} {q : Routine σ α'}
      (rest : Sim R V r s q t') : Sim R V r s (write t' q) t

/-- From all related states the routines go the same way. -/
def Similar (R : σ → σ → Prop) (V : α → α' → Prop) (r : Routine σ α) (q : Routine σ α') : Prop :=
  ∀ s t, R s t → Sim R V r s q t

theorem Similar.done {a : α} {b : α'} (same : V a b) : Similar R V (done a) (done b) :=
  fun _ _ related => .done same related

theorem Sim.bind {r : Routine σ α} {q : Routine σ α'} {f : α → Routine σ β} {g : α' → Routine σ β'}
    {s t : σ} (first : Sim R V r s q t) (next : ∀ a b, V a b → Similar R W (f a) (g b)) :
    Sim R W (r.bind f) s (q.bind g) t := by
  induction first with
  | done same related => exact next _ _ same _ _ related
  | pause related _ ih =>
    apply Sim.pause related
    intro s t related
    exact ih s t related
  | readLeft _ ih => exact .readLeft ih
  | writeLeft _ ih => exact .writeLeft ih
  | readRight _ ih => exact .readRight ih
  | writeRight _ ih => exact .writeRight ih

theorem Similar.bind {r : Routine σ α} {q : Routine σ α'} {f : α → Routine σ β}
    {g : α' → Routine σ β'} (first : Similar R V r q)
    (next : ∀ a b, V a b → Similar R W (f a) (g b)) : Similar R W (r.bind f) (q.bind g) := by
  intro s t related
  exact (first s t related).bind next

/-- Routines that go the same way have related results and leave related states behind. -/
theorem Sim.run {r : Routine σ α} {q : Routine σ α'} {s t : σ} (same : Sim R V r s q t) :
    V (r.run s).1 (q.run t).1 ∧ R (r.run s).2 (q.run t).2 := by
  induction same with
  | done same related => exact ⟨same, related⟩
  | pause related _ ih => exact ih _ _ related
  | readLeft _ ih => exact ih
  | writeLeft _ ih => exact ih
  | readRight _ ih => exact ih
  | writeRight _ ih => exact ih

/-- The routine ends without a pause. -/
abbrev Ends : Routine σ α → σ → α → σ → Prop := Runs fun _ _ => False

namespace Ends

theorem step (f : σ → α × σ) (s : σ) : Ends (step f) s (f s).1 (f s).2 := .read (.write (.done _ _))

theorem run {r : Routine σ α} {s after : σ} {a : α} (ends : Ends r s a after) :
    r.run s = (a, after) := (ends.mono fun _ _ => False.elim).eq_run

/-- Two routines that end without a pause, with related results and in related states. -/
theorem sim {r : Routine σ α} {q : Routine σ α'} {s t s' t' : σ} {a : α} {b : α'}
    (left : Ends r s a s') (right : Ends q t b t') (same : V a b) (related : R s' t') :
    Sim R V r s q t := by
  induction left with
  | done a s =>
    induction right with
    | done b t => exact .done same related
    | pause none => exact none.elim
    | read _ ih => exact .readRight (ih same related)
    | write _ ih => exact .writeRight (ih same related)
  | pause none => exact none.elim
  | read _ ih => exact .readLeft (ih same related)
  | write _ ih => exact .writeLeft (ih same related)

end Ends

theorem Similar.step {f : σ → α × σ} {g : σ → α' × σ}
    (results : ∀ s t, R s t → V (f s).1 (g t).1) (states : ∀ s t, R s t → R (f s).2 (g t).2) :
    Similar R V (step f) (step g) := by
  intro s t related
  exact (Ends.step f s).sim (Ends.step g t) (results s t related) (states s t related)

end Stencil.Routine
