import Mathlib
import Stencil.Evaluation
import Stencil.Proofs.Routine.Over
import Stencil.Proofs.Routine.Turns

/-! # Routines that log on time

A routine is punctual when it is known how often it will pause and what it writes to the log in
which turn. Nobody else can hold it up, as long as the progress of the pending values it waits for
is its own. Two siblings that own different values are punctual as a pair: the lines of each turn
stand in their order, up to the turn in which one of them fails.
-/

namespace Stencil

variable {α β : Type} {s t u : Store}

/-! ## Stores -/

namespace Store

/-- The values that are owned have come as far in the one store as in the other. -/
def SameOn (own : Set Handle) (s t : Store) : Prop :=
  ∀ handle ∈ own, t.progressOf handle = s.progressOf handle

/-- All that happens to a store is that owned values come further and that lines are logged. -/
structure Gains (own : Set Handle) (lines : List String) (s t : Store) : Prop where
  others : ∀ handle ∉ own, t.progressOf handle = s.progressOf handle
  log : t.log = s.log ++ lines

variable {own own' : Set Handle} {lines lines' : List String}

theorem SameOn.refl (own : Set Handle) (s : Store) : SameOn own s s := fun _ _ => rfl

theorem SameOn.trans (first : SameOn own s t) (second : SameOn own t u) : SameOn own s u :=
  fun handle member => (second handle member).trans (first handle member)

theorem SameOn.mono (same : SameOn own' s t) (within : own ⊆ own') : SameOn own s t :=
  fun handle member => same handle (within member)

/-- What one gains leaves others alone that own nothing of it. -/
theorem Gains.sameOn (gains : Gains own lines s t) (apart : Disjoint own own') : SameOn own' s t :=
  fun handle member => gains.others handle (Set.disjoint_right.mp apart member)

theorem Gains.refl (own : Set Handle) (s : Store) : Gains own [] s s :=
  ⟨fun _ _ => rfl, (List.append_nil _).symm⟩

theorem Gains.append (first : Gains own lines s t) (second : Gains own lines' t u) :
    Gains own (lines ++ lines') s u where
  others handle outside := (second.others handle outside).trans (first.others handle outside)
  log := by rw [second.log, first.log, List.append_assoc]

theorem Gains.mono (gains : Gains own lines s t) (within : own ⊆ own') : Gains own' lines s t :=
  ⟨fun handle outside => gains.others handle fun member => outside (within member), gains.log⟩

/-- What two gain in a turn each, one after the other. -/
theorem Gains.beside (first : Gains own lines s t) (second : Gains own' lines' t u) :
    Gains (own ∪ own') (lines ++ lines') s u :=
  (first.mono Set.subset_union_left).append (second.mono Set.subset_union_right)

end Store

/-! ## Routines -/

/-- From the store on, whatever becomes of what it does not own, the routine pauses `n` times,
writes to the log in each turn what stands in the schedule, and ends with the result. -/
def Punctual (own : Set Handle) (result : α) :
    Nat → (Nat → List String) → Routine Store α → Store → Prop
  | 0, schedule, r, s => ∀ t, s.SameOn own t →
      ∃ u, t.Gains own (schedule 0) u ∧ r.turn t = (.inl result, u)
  | n + 1, schedule, r, s => ∀ t, s.SameOn own t →
      ∃ u rest, t.Gains own (schedule 0) u ∧ r.turn t = (.inr rest, u) ∧
        Punctual own result n (fun k => schedule (k + 1)) rest u

namespace Punctual

variable {own own' : Set Handle} {result : α} {n m : Nat} {schedule schedule' : Nat → List String}
  {r : Routine Store α}

/-- What is punctual stays so while others keep off what it owns. -/
theorem of_sameOn (punctual : Punctual own result n schedule r s) (same : s.SameOn own t) :
    Punctual own result n schedule r t := by
  cases n with
  | zero => exact fun u same' => punctual u (same.trans same')
  | succ n => exact fun u same' => punctual u (same.trans same')

/-- Only the turns that are taken matter. -/
theorem congr (punctual : Punctual own result n schedule r s)
    (same : ∀ k ≤ n, schedule k = schedule' k) : Punctual own result n schedule' r s := by
  induction n generalizing schedule schedule' r s with
  | zero =>
    intro t sameOn
    obtain ⟨u, gains, ends⟩ := punctual t sameOn
    exact ⟨u, same 0 (Nat.le_refl 0) ▸ gains, ends⟩
  | succ n ih =>
    intro t sameOn
    obtain ⟨u, rest, gains, pauses, goesOn⟩ := punctual t sameOn
    exact ⟨u, rest, same 0 (Nat.zero_le _) ▸ gains, pauses,
      ih goesOn fun k bound => same (k + 1) (Nat.succ_le_succ bound)⟩

theorem mono (punctual : Punctual own result n schedule r s) (within : own ⊆ own') :
    Punctual own' result n schedule r s := by
  induction n generalizing schedule r s with
  | zero =>
    intro t same
    obtain ⟨u, gains, ends⟩ := punctual t (same.mono within)
    exact ⟨u, gains.mono within, ends⟩
  | succ n ih =>
    intro t same
    obtain ⟨u, rest, gains, pauses, goesOn⟩ := punctual t (same.mono within)
    exact ⟨u, rest, gains.mono within, pauses, ih goesOn⟩

theorem done (own : Set Handle) (result : α) (s : Store) :
    Punctual own result 0 (fun _ => []) (.done result) s :=
  fun t _ => ⟨t, .refl own t, rfl⟩

/-- Changing the result keeps to the schedule. -/
theorem map (punctual : Punctual own result n schedule r s) (f : α → β) :
    Punctual own (f result) n schedule (r.bind fun a => .done (f a)) s := by
  induction n generalizing schedule r s with
  | zero =>
    intro t same
    obtain ⟨u, gains, ends⟩ := punctual t same
    exact ⟨u, gains, by rw [Routine.turn_bind, ends]; rfl⟩
  | succ n ih =>
    intro t same
    obtain ⟨u, rest, gains, pauses, goesOn⟩ := punctual t same
    exact ⟨u, _, gains, by rw [Routine.turn_bind, pauses], ih goesOn⟩

/-- Carried to its end the routine has written all of the schedule. -/
theorem run (punctual : Punctual own result n schedule r s) :
    ∃ u, r.run s = (result, u) ∧ s.Gains own ((List.range (n + 1)).flatMap schedule) u := by
  induction n generalizing schedule r s with
  | zero =>
    obtain ⟨u, gains, ends⟩ := punctual s (.refl own s)
    refine ⟨u, ?_, ?_⟩
    · rw [Routine.run_eq_turn, ends]
    · simpa using gains
  | succ n ih =>
    obtain ⟨t, rest, gains, pauses, goesOn⟩ := punctual s (.refl own s)
    obtain ⟨u, ended, further⟩ := ih goesOn
    refine ⟨u, ?_, ?_⟩
    · rw [Routine.run_eq_turn, pauses]
      exact ended
    · rw [List.range_succ_eq_map, List.flatMap_cons, List.flatMap_map]
      exact gains.append further

/-! ## Two siblings -/

section

variable {a : α} {b : β} {e : Error} {x : Except Error α} {y : Except Error β} {r : Attempt α}
  {q : Attempt β}

/-- The first ends in its turn, and leaves the rest to the second. -/
theorem both_of_ends (apart : Disjoint own own') (first : Punctual own (.ok a) 0 schedule r s)
    (second : Punctual own' y m schedule' q s) :
    Punctual (own ∪ own') (y.map (a, ·)) m
      (fun k => (if k = 0 then schedule 0 else []) ++ schedule' k) (Routine.both r q) s := by
  cases m with
  | zero =>
    intro t same
    obtain ⟨u, gains, ends⟩ := first t (same.mono Set.subset_union_left)
    obtain ⟨v, gains', ends'⟩ :=
      second u ((same.mono Set.subset_union_right).trans (gains.sameOn apart))
    refine ⟨v, gains.beside gains', ?_⟩
    rw [Routine.turn_both, ends]
    dsimp only
    rw [Routine.turn_bind, ends']
    rfl
  | succ m =>
    intro t same
    obtain ⟨u, gains, ends⟩ := first t (same.mono Set.subset_union_left)
    obtain ⟨v, rest, gains', pauses, goesOn⟩ :=
      second u ((same.mono Set.subset_union_right).trans (gains.sameOn apart))
    refine ⟨v, _, gains.beside gains', ?_,
      (goesOn.map fun result => result.map (a, ·)).mono Set.subset_union_right⟩
    rw [Routine.turn_both, ends]
    dsimp only
    rw [Routine.turn_bind, pauses]

/-- The second ends in its turn, and leaves the rest to the first. -/
theorem both_of_ends_second (apart : Disjoint own own')
    (first : Punctual own x (n + 1) schedule r s) (second : Punctual own' (.ok b) 0 schedule' q s) :
    Punctual (own ∪ own') (x.map (·, b)) (n + 1)
      (fun k => schedule k ++ if k = 0 then schedule' 0 else []) (Routine.both r q) s := by
  intro t same
  obtain ⟨u, rest, gains, pauses, goesOn⟩ := first t (same.mono Set.subset_union_left)
  obtain ⟨v, gains', ends⟩ :=
    second u ((same.mono Set.subset_union_right).trans (gains.sameOn apart))
  refine ⟨v, Routine.both rest (.done (.ok b)), gains.beside gains', ?_, ?_⟩
  · rw [Routine.turn_both, pauses]
    dsimp only
    rw [Routine.turn_secondTurn, ends]
  · rw [Routine.both_done_right]
    have left := (goesOn.of_sameOn (gains'.sameOn apart.symm)).map fun result => result.map (·, b)
    exact (left.mono Set.subset_union_left).congr fun k _ => by simp

/-- Both pause, and what is known of what is left of them is known of the pair. -/
theorem both_of_pauses (apart : Disjoint own own') {z : Except Error (α × β)} {l : Nat}
    {joint : Nat → List String} (first : Punctual own x (n + 1) schedule r s)
    (second : Punctual own' y (m + 1) schedule' q s) (now : joint 0 = schedule 0 ++ schedule' 0)
    (goesOn : ∀ {rest rest' t}, Punctual own x n (fun k => schedule (k + 1)) rest t →
      Punctual own' y m (fun k => schedule' (k + 1)) rest' t →
      Punctual (own ∪ own') z l (fun k => joint (k + 1)) (Routine.both rest rest') t) :
    Punctual (own ∪ own') z (l + 1) joint (Routine.both r q) s := by
  intro t same
  obtain ⟨u, rest, gains, pauses, left⟩ := first t (same.mono Set.subset_union_left)
  obtain ⟨v, rest', gains', pauses', left'⟩ :=
    second u ((same.mono Set.subset_union_right).trans (gains.sameOn apart))
  refine ⟨v, Routine.both rest rest', now ▸ gains.beside gains', ?_,
    goesOn (left.of_sameOn (gains'.sameOn apart.symm)) left'⟩
  rw [Routine.turn_both, pauses]
  dsimp only
  rw [Routine.turn_secondTurn, pauses']

/-- Two siblings that succeed go on until the slower one has ended. -/
theorem both (apart : Disjoint own own') (first : Punctual own (.ok a) n schedule r s)
    (second : Punctual own' (.ok b) m schedule' q s) (past : ∀ k, n < k → schedule k = [])
    (past' : ∀ k, m < k → schedule' k = []) :
    Punctual (own ∪ own') (.ok (a, b)) (max n m) (fun k => schedule k ++ schedule' k)
      (Routine.both r q) s := by
  induction n generalizing m schedule schedule' r q s with
  | zero =>
    rw [Nat.zero_max]
    refine (both_of_ends apart first second).congr fun k _ => ?_
    cases k with
    | zero => rfl
    | succ k => rw [past _ k.succ_pos]; rfl
  | succ n ih =>
    cases m with
    | zero =>
      rw [Nat.max_zero]
      refine (both_of_ends_second apart first second).congr fun k _ => ?_
      cases k with
      | zero => rfl
      | succ k => rw [past' _ k.succ_pos]; rfl
    | succ m =>
      rw [Nat.succ_max_succ]
      refine both_of_pauses apart first second rfl fun left left' => ih left left' ?_ ?_
      · exact fun k late => past _ (Nat.succ_lt_succ late)
      · exact fun k late => past' _ (Nat.succ_lt_succ late)

/-- When the first fails, the second does not have the turn in which it does. -/
theorem both_of_fails (apart : Disjoint own own') (first : Punctual own (.error e) n schedule r s)
    (second : Punctual own' (.ok b) m schedule' q s) (past' : ∀ k, m < k → schedule' k = []) :
    Punctual (own ∪ own') (.error e) n (fun k => schedule k ++ if k < n then schedule' k else [])
      (Routine.both r q) s := by
  induction n generalizing m schedule schedule' r q s with
  | zero =>
    intro t same
    obtain ⟨u, gains, ends⟩ := first t (same.mono Set.subset_union_left)
    refine ⟨u, by simpa using gains.mono Set.subset_union_left, ?_⟩
    rw [Routine.turn_both, ends]
  | succ n ih =>
    cases m with
    | zero =>
      refine (both_of_ends_second apart first second).congr fun k _ => ?_
      cases k with
      | zero => rfl
      | succ k => rw [past' _ k.succ_pos, ite_self]; rfl
    | succ m =>
      refine both_of_pauses apart first second (by simp) fun left left' => ?_
      refine (ih left left' fun k late => past' _ (Nat.succ_lt_succ late)).congr fun k _ => ?_
      simp only [Nat.succ_lt_succ_iff]

/-- When the second fails, the first has had its turn. -/
theorem both_of_fails_second (apart : Disjoint own own')
    (first : Punctual own (.ok a) n schedule r s)
    (second : Punctual own' (.error e) m schedule' q s)
    (past : ∀ k, n < k → schedule k = []) :
    Punctual (own ∪ own') (.error e) m (fun k => schedule k ++ schedule' k)
      (Routine.both r q) s := by
  induction n generalizing m schedule schedule' r q s with
  | zero =>
    refine (both_of_ends apart first second).congr fun k _ => ?_
    cases k with
    | zero => rfl
    | succ k => rw [past _ k.succ_pos]; rfl
  | succ n ih =>
    cases m with
    | zero =>
      intro t same
      obtain ⟨u, rest, gains, pauses, -⟩ := first t (same.mono Set.subset_union_left)
      obtain ⟨v, gains', ends⟩ :=
        second u ((same.mono Set.subset_union_right).trans (gains.sameOn apart))
      refine ⟨v, gains.beside gains', ?_⟩
      rw [Routine.turn_both, pauses]
      dsimp only
      rw [Routine.turn_secondTurn, ends]
    | succ m =>
      refine both_of_pauses apart first second rfl fun left left' => ih left left' ?_
      exact fun k late => past _ (Nat.succ_lt_succ late)

end

end Punctual

end Stencil
