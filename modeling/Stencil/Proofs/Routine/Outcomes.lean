import Stencil.Routine.Basic

/-! # What a routine can end with

While a routine pauses, others may change the state. A run tells how the routine ends when they
change it in a way that is allowed to them. A guarantee speaks of all runs: the routine keeps an
invariant at each pause and at its end, and ends with a result of some kind, as long as the others
keep the invariant as well.
-/

namespace Stencil.Routine

variable {σ α β : Type}

/-! ## Runs -/

/-- From a state the routine can end with a result and leave another state behind, when at each
pause the others change the state as they `may`. -/
inductive Runs (may : σ → σ → Prop) : Routine σ α → σ → α → σ → Prop
  | done (a : α) (s : σ) : Runs may (done a) s a s
  | pause {r : Routine σ α} {s s' after : σ} {a : α} (others : may s s')
      (rest : Runs may r s' a after) : Runs may (pause r) s a after
  | read {next : σ → Routine σ α} {s after : σ} {a : α} (rest : Runs may (next s) s a after) :
      Runs may (read next) s a after
  | write {r : Routine σ α} {s s' after : σ} {a : α} (rest : Runs may r s' a after) :
      Runs may (write s' r) s a after

namespace Runs

variable {may : σ → σ → Prop}

theorem bind {r : Routine σ α} {f : α → Routine σ β} {s middle after : σ} {a : α} {b : β}
    (first : Runs may r s a middle) (second : Runs may (f a) middle b after) :
    Runs may (r.bind f) s b after := by
  induction first with
  | done _ _ => exact second
  | pause others _ ih => exact .pause others (ih second)
  | read _ ih => exact .read (ih second)
  | write _ ih => exact .write (ih second)

/-- A run of a sequence is a run of its first part and then one of its second. -/
theorem of_bind {r : Routine σ α} {f : α → Routine σ β} {s after : σ} {b : β}
    (whole : Runs may (r.bind f) s b after) :
    ∃ a middle, Runs may r s a middle ∧ Runs may (f a) middle b after := by
  induction r generalizing s with
  | done a => exact ⟨a, s, .done a s, whole⟩
  | pause r ih =>
    cases whole with
    | pause others rest =>
      obtain ⟨a, middle, first, second⟩ := ih rest
      exact ⟨a, middle, .pause others first, second⟩
  | read next ih =>
    cases whole with
    | read rest =>
      obtain ⟨a, middle, first, second⟩ := ih s rest
      exact ⟨a, middle, .read first, second⟩
  | write s' r ih =>
    cases whole with
    | write rest =>
      obtain ⟨a, middle, first, second⟩ := ih rest
      exact ⟨a, middle, .write first, second⟩

theorem done_iff {a b : α} {s after : σ} :
    Runs may (Routine.done a) s b after ↔ b = a ∧ after = s := by
  constructor
  · intro run
    cases run
    exact ⟨rfl, rfl⟩
  · rintro ⟨rfl, rfl⟩
    exact .done _ _

theorem mono {may' : σ → σ → Prop} {r : Routine σ α} {s after : σ} {a : α}
    (run : Runs may r s a after) (wider : ∀ s s', may s s' → may' s s') :
    Runs may' r s a after := by
  induction run with
  | done _ _ => exact .done _ _
  | pause others _ ih => exact .pause (wider _ _ others) ih
  | read _ ih => exact .read ih
  | write _ ih => exact .write ih

/-- Where the others may leave the state as it is, every routine comes to an end. -/
theorem exists_of_refl (idle : ∀ s, may s s) (r : Routine σ α) (s : σ) :
    ∃ a after, Runs may r s a after := by
  induction r generalizing s with
  | done a => exact ⟨a, s, .done a s⟩
  | pause r ih =>
    obtain ⟨a, after, rest⟩ := ih s
    exact ⟨a, after, .pause (idle s) rest⟩
  | read next ih =>
    obtain ⟨a, after, rest⟩ := ih s s
    exact ⟨a, after, .read rest⟩
  | write s' r ih =>
    obtain ⟨a, after, rest⟩ := ih s'
    exact ⟨a, after, .write rest⟩

/-- Left alone, a routine runs in one way. -/
theorem eq_run {r : Routine σ α} {s after : σ} {a : α} (alone : Runs (· = ·) r s a after) :
    r.run s = (a, after) := by
  induction alone with
  | done _ _ => rfl
  | pause others _ ih =>
    subst others
    exact ih
  | read _ ih => exact ih
  | write _ ih => exact ih

end Runs

/-! ## Guarantees -/

/-- From a state the routine restores the invariant before each pause and at its end, and ends with
a result of the kind, as long as the others restore the invariant too. -/
inductive Keeps (I : σ → Prop) (P : α → Prop) : Routine σ α → σ → Prop
  | done {a : α} {s : σ} (fits : P a) (kept : I s) : Keeps I P (done a) s
  | pause {r : Routine σ α} {s : σ} (kept : I s) (goesOn : ∀ s', I s' → Keeps I P r s') :
      Keeps I P (pause r) s
  | read {next : σ → Routine σ α} {s : σ} (rest : Keeps I P (next s) s) : Keeps I P (read next) s
  | write {r : Routine σ α} {s s' : σ} (rest : Keeps I P r s') : Keeps I P (write s' r) s

/-- The routine keeps the invariant from every state with it, and ends with a result of the kind. -/
def Assured (I : σ → Prop) (P : α → Prop) (r : Routine σ α) : Prop := ∀ s, I s → Keeps I P r s

/-- The routine can end with the result, when all keep the invariant. -/
def Outcome (I : σ → Prop) (r : Routine σ α) (a : α) : Prop :=
  ∃ s after, I s ∧ Runs (fun _ s' => I s') r s a after

variable {I : σ → Prop} {P : α → Prop} {Q : β → Prop}

namespace Keeps

theorem mono {P' : α → Prop} {r : Routine σ α} {s : σ} (keeps : Keeps I P r s)
    (weaker : ∀ a, P a → P' a) : Keeps I P' r s := by
  induction keeps with
  | done fits kept => exact .done (weaker _ fits) kept
  | pause kept _ ih => exact .pause kept ih
  | read _ ih => exact .read ih
  | write _ ih => exact .write ih

theorem bind {r : Routine σ α} {f : α → Routine σ β} {s : σ} (first : Keeps I P r s)
    (next : ∀ a, P a → Assured I Q (f a)) : Keeps I Q (r.bind f) s := by
  induction first with
  | done fits kept => exact next _ fits _ kept
  | pause kept _ ih => exact .pause kept ih
  | read _ ih => exact .read ih
  | write _ ih => exact .write ih

/-- What is guaranteed of a function of the result is a guarantee of the result. -/
theorem of_map {r : Routine σ α} {g : α → β} {s : σ}
    (keeps : Keeps I Q (r.bind fun a => .done (g a)) s) : Keeps I (fun a => Q (g a)) r s := by
  induction r generalizing s with
  | done a =>
    cases keeps with
    | done fits kept => exact .done fits kept
  | pause r ih =>
    cases keeps with
    | pause kept goesOn => exact .pause kept fun s' others => ih (goesOn s' others)
  | read next ih =>
    cases keeps with
    | read rest => exact .read (ih s rest)
  | write s' r ih =>
    cases keeps with
    | write rest => exact .write (ih rest)

/-- Every run of the routine ends as it guarantees. -/
theorem of_runs {r : Routine σ α} {s after : σ} {a : α} (keeps : Keeps I P r s)
    (run : Runs (fun _ s' => I s') r s a after) : P a ∧ I after := by
  induction run with
  | done _ _ =>
    cases keeps with
    | done fits kept => exact ⟨fits, kept⟩
  | pause others _ ih =>
    cases keeps with
    | pause _ goesOn => exact ih (goesOn _ others)
  | read _ ih =>
    cases keeps with
    | read rest => exact ih rest
  | write _ ih =>
    cases keeps with
    | write rest => exact ih rest

/-- Carried to its end with nobody to pause for, the routine takes one of its runs. -/
theorem runs_run {r : Routine σ α} {s : σ} (keeps : Keeps I P r s) :
    Runs (fun _ s' => I s') r s (r.run s).1 (r.run s).2 := by
  induction keeps with
  | done _ _ => exact .done _ _
  | pause kept _ ih => exact .pause kept (ih _ kept)
  | read _ ih => exact .read ih
  | write _ ih => exact .write ih

/-- The routine guarantees to end as one of its runs does. -/
theorem runs {r : Routine σ α} {s : σ} (keeps : Keeps I P r s) :
    Keeps I (fun a => ∃ after, Runs (fun _ s' => I s') r s a after) r s := by
  induction keeps with
  | done _ kept => exact .done ⟨_, .done _ _⟩ kept
  | pause kept _ ih =>
    refine .pause kept fun s' others => (ih s' others).mono ?_
    exact fun a ⟨after, run⟩ => ⟨after, .pause others run⟩
  | read _ ih => exact .read (ih.mono fun a ⟨after, run⟩ => ⟨after, .read run⟩)
  | write _ ih => exact .write (ih.mono fun a ⟨after, run⟩ => ⟨after, .write run⟩)

/-- Carried to its end with nobody to pause for, the routine ends as it guarantees. -/
theorem run {r : Routine σ α} {s : σ} (keeps : Keeps I P r s) :
    P (r.run s).1 ∧ I (r.run s).2 := by
  induction keeps with
  | done fits kept => exact ⟨fits, kept⟩
  | pause kept _ ih => exact ih _ kept
  | read _ ih => exact ih
  | write _ ih => exact ih

end Keeps

namespace Assured

theorem done {a : α} (fits : P a) : Assured I P (done a) := fun _ kept => .done fits kept

theorem mono {P' : α → Prop} {r : Routine σ α} (assured : Assured I P r)
    (weaker : ∀ a, P a → P' a) : Assured I P' r := fun s kept => (assured s kept).mono weaker

theorem bind {r : Routine σ α} {f : α → Routine σ β} (first : Assured I P r)
    (next : ∀ a, P a → Assured I Q (f a)) : Assured I Q (r.bind f) :=
  fun s kept => (first s kept).bind next

theorem step {f : σ → α × σ} (fits : ∀ s, I s → P (f s).1) (keeps : ∀ s, I s → I (f s).2) :
    Assured I P (step f) := fun s kept => .read (.write (.done (fits s kept) (keeps s kept)))

theorem of_outcome {r : Routine σ α} (assured : Assured I P r) {a : α} (possible : Outcome I r a) :
    P a := by
  obtain ⟨s, after, kept, run⟩ := possible
  exact ((assured s kept).of_runs run).1

/-- The routine guarantees to end as it can. -/
theorem outcome {r : Routine σ α} (assured : Assured I P r) : Assured I (Outcome I r) r :=
  fun s kept => (assured s kept).runs.mono fun _ ⟨after, run⟩ => ⟨s, after, kept, run⟩

/-- A run to the end is an outcome. -/
theorem outcome_run {r : Routine σ α} (assured : Assured I P r) {s : σ} (kept : I s) :
    Outcome I r (r.run s).1 := ⟨s, _, kept, (assured s kept).runs_run⟩

/-- Two guarantees of one routine hold together. -/
theorem and {Q : α → Prop} {r : Routine σ α} (first : Assured I P r) (second : Assured I Q r) :
    Assured I (fun a => P a ∧ Q a) r :=
  first.outcome.mono fun _ possible => ⟨first.of_outcome possible, second.of_outcome possible⟩

/-- What a sequence can end with is what its second part can after its first part. -/
theorem outcome_bind {r : Routine σ α} (assured : Assured I P r) {f : α → Routine σ β} {b : β}
    (possible : Outcome I (r.bind f) b) : ∃ a, Outcome I r a ∧ Outcome I (f a) b := by
  obtain ⟨s, after, kept, run⟩ := possible
  obtain ⟨a, middle, first, second⟩ := run.of_bind
  exact ⟨a, ⟨s, middle, kept, first⟩, middle, after, ((assured s kept).of_runs first).2, second⟩

/-- Without an invariant nothing has to be kept. -/
theorem free (r : Routine σ α) : Assured (fun _ => True) (fun _ => True) r := by
  induction r with
  | done a => exact .done trivial
  | pause r ih => exact fun s kept => .pause kept ih
  | read next ih => exact fun s kept => .read (ih s s kept)
  | write s' r ih => exact fun s kept => .write (ih s' kept)

end Assured

/-- What is possible when all keep an invariant is possible when nothing has to be kept. -/
theorem Outcome.free {r : Routine σ α} {a : α} (possible : Outcome I r a) :
    Outcome (fun _ => True) r a := by
  obtain ⟨s, after, _, run⟩ := possible
  exact ⟨s, after, trivial, run.mono fun _ _ _ => trivial⟩

theorem outcome_done {a b : α} (possible : Outcome I (done a) b) : b = a := by
  obtain ⟨s, after, _, run⟩ := possible
  exact (Runs.done_iff.mp run).1

end Stencil.Routine
