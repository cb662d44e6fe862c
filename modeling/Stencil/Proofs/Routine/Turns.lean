import Stencil.Proofs.Routine.Siblings

/-! # Turns

A turn carries a routine to its next pause or to its end. Carrying it to its end with nobody to
pause for is taking its turns one after the other, and what a group does in a turn is told by the
turns of its members.
-/

namespace Stencil.Routine

variable {σ ε α β γ : Type}

/-- Carries a routine to its next pause or to its end. -/
def turn : Routine σ α → σ → (α ⊕ Routine σ α) × σ
  | done a, s => (.inl a, s)
  | pause rest, s => (.inr rest, s)
  | read next, s => turn (next s) s
  | write s rest, _ => turn rest s

/-- To run a routine is to give it turns until it has finished. -/
theorem run_eq_turn (r : Routine σ α) (s : σ) : r.run s =
    match r.turn s with
    | (.inl a, s') => (a, s')
    | (.inr rest, s') => rest.run s' := by
  induction r generalizing s with
  | done | pause => rfl
  | read _ ih => exact ih s s
  | write s' _ ih => exact ih s'

/-- A turn of a sequence is one of its first part, until that has finished. -/
theorem turn_bind (r : Routine σ α) (f : α → Routine σ β) (s : σ) : (r.bind f).turn s =
    match r.turn s with
    | (.inl a, s') => (f a).turn s'
    | (.inr rest, s') => (.inr (rest.bind f), s') := by
  induction r generalizing s with
  | done | pause => rfl
  | read _ ih => exact ih s s
  | write s' _ ih => exact ih s'

/-! ## In rounds -/

theorem turn_secondTurn (resume : Routine σ (Except ε β) → Routine σ (Except ε γ))
    (q : Routine σ (Except ε β)) (s : σ) : (secondTurn resume q).turn s =
      match q.turn s with
      | (.inl (.error e), s') => (.inl (.error e), s')
      | (.inl (.ok b), s') => (.inr (resume (done (.ok b))), s')
      | (.inr rest, s') => (.inr (resume rest), s') := by
  induction q generalizing s with
  | done result => cases result <;> rfl
  | pause => rfl
  | read _ ih => exact ih s s
  | write s' _ ih => exact ih s'

/-- In a turn of two siblings the first takes its turn, and the second takes one unless the first
has failed. -/
theorem turn_both (r : Routine σ (Except ε α)) (q : Routine σ (Except ε β)) (s : σ) :
    (both r q).turn s =
      match r.turn s with
      | (.inl (.error e), s') => (.inl (.error e), s')
      | (.inl (.ok a), s') => (q.bind fun result => done (result.map (a, ·))).turn s'
      | (.inr rest, s') => (secondTurn (both rest) q).turn s' := by
  induction r generalizing s with
  | done result => cases result <;> rfl
  | pause => rfl
  | read _ ih => exact ih s s
  | write s' _ ih => exact ih s'

/-! ## In turns -/

section

variable {place : Nat} {current : Routine σ (Except ε α)} {waiting : Queue σ ε α}
  {outcomes : Outcomes ε α} {paused : Bool} {s s' : σ}

/-- A sibling that has not ended stands behind the others after its turn. -/
theorem run_takeTurns_of_pauses {rest : Routine σ (Except ε α)}
    (pauses : current.turn s = (.inr rest, s')) :
    ∃ next others paused', next :: Queue.siblings others = waiting.siblings ++ [⟨place, rest⟩] ∧
      (takeTurns place current waiting outcomes paused).run s =
        (takeTurns next.place next.routine others outcomes paused').run s' := by
  induction current generalizing s with
  | done result => cases pauses
  | pause r =>
    cases pauses
    cases turn : waiting.next? with
    | none =>
      rw [takeTurns_pause_alone _ turn]
      have alone := Queue.next?_eq_none_iff.mp turn
      exact ⟨⟨place, rest⟩, waiting, false, by rw [alone]; rfl, rfl⟩
    | some taken =>
      obtain ⟨next, others⟩ := taken
      rw [takeTurns_pause _ turn, Queue.siblings_of_next? turn]
      cases paused with
      | false => exact ⟨next, others.add ⟨place, rest⟩, true, by simp, rfl⟩
      | true => exact ⟨next, others.add ⟨place, rest⟩, false, by simp, rfl⟩
  | read next ih =>
    rw [takeTurns_read]
    exact ih s pauses
  | write t r ih =>
    rw [takeTurns_write]
    exact ih pauses

/-- When a sibling ends and none has failed, the next one has its turn, and the group ends behind
the last. -/
theorem run_takeTurns_of_ends {a : α} (ends : current.turn s = (.inl (.ok a), s'))
    (none : outcomes.failed = none) :
    (waiting.siblings = [] →
      ((takeTurns place current waiting outcomes paused).run s).2 = s') ∧
    ∀ next others, waiting.siblings = next :: others → ∃ queue outcomes',
      Queue.siblings queue = others ∧ Outcomes.failed outcomes' = .none ∧
        (takeTurns place current waiting outcomes paused).run s =
          (takeTurns next.place next.routine queue outcomes' false).run s' := by
  induction current generalizing s with
  | done result =>
    cases ends
    have going : (outcomes.add place (.ok a)).failure? waiting = .none := by
      rw [Outcomes.failure?, Outcomes.add, none]
    rw [takeTurns_ended, going]
    refine ⟨fun alone => ?_, fun next others there => ?_⟩
    · rw [Queue.next?_eq_none_iff.mpr alone]
      rfl
    · cases turn : waiting.next? with
      | none => simp [Queue.next?_eq_none_iff.mp turn] at there
      | some taken =>
        obtain ⟨next', queue⟩ := taken
        rw [Queue.siblings_of_next? turn] at there
        cases there
        exact ⟨queue, outcomes.add place (.ok a), rfl, none, rfl⟩
  | pause r => cases ends
  | read next ih =>
    rw [takeTurns_read]
    exact ih s ends
  | write t r ih =>
    rw [takeTurns_write]
    exact ih ends

end

end Stencil.Routine
