/-! # Routines

A routine computes a result while it reads and writes a state that it shares with others, and may
pause between two steps to let the others go on. `run` carries one routine to its end.
-/

namespace Stencil

/-- A computation over a shared state that can pause. -/
inductive Routine (σ α : Type) : Type
  | done (result : α)
  | pause (rest : Routine σ α)
  | read (next : σ → Routine σ α)
  | write (state : σ) (rest : Routine σ α)

namespace Routine

variable {σ α β γ : Type}

/-- Goes on with the result of a routine. -/
def bind : Routine σ α → (α → Routine σ β) → Routine σ β
  | done a, f => f a
  | pause rest, f => pause (bind rest f)
  | read next, f => read fun s => bind (next s) f
  | write s rest, f => write s (bind rest f)

instance : Monad (Routine σ) where
  pure := done
  bind := bind

@[simp] theorem bind_done_right (r : Routine σ α) : r.bind done = r := by
  induction r with
  | done _ => rfl
  | pause _ ih => simp [bind, ih]
  | read _ ih => simp [bind, ih]
  | write _ _ ih => simp [bind, ih]

theorem bind_assoc (r : Routine σ α) (f : α → Routine σ β) (g : β → Routine σ γ) :
    (r.bind f).bind g = r.bind fun a => (f a).bind g := by
  induction r with
  | done _ => rfl
  | pause _ ih => simp [bind, ih]
  | read _ ih => simp [bind, ih]
  | write _ _ ih => simp [bind, ih]

instance : LawfulMonad (Routine σ) :=
  LawfulMonad.mk' (Routine σ) bind_done_right (fun _ _ => rfl) bind_assoc

def step (f : σ → α × σ) : Routine σ α := read fun s => write (f s).2 (done (f s).1)

def update (f : σ → σ) : Routine σ Unit := step fun s => ((), f s)

/-- Carries a routine to its end, with nobody to pause for. -/
def run : Routine σ α → σ → α × σ
  | done a, s => (a, s)
  | pause rest, s => run rest s
  | read next, s => run (next s) s
  | write s rest, _ => run rest s

theorem run_bind (r : Routine σ α) (f : α → Routine σ β) (s : σ) :
    (r.bind f).run s = (f (r.run s).1).run (r.run s).2 := by
  induction r generalizing s with
  | done _ => rfl
  | pause _ ih => exact ih s
  | read _ ih => exact ih s s
  | write s' _ ih => exact ih s'

end Routine

end Stencil
