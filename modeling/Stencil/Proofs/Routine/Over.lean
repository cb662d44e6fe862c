import Stencil.Routine.Turns

/-! # Groups of routines that are over

A group in which every sibling has succeeded is over at once, with the results in order, whichever
schedule it would have followed. A routine beside which all others are over goes on as if it were
alone.
-/

namespace Stencil.Routine

variable {σ ε α β : Type}

/-- Values that are there are joined at once, in rounds. -/
theorem joinInRounds_done (values : List α) :
    joinInRounds (σ := σ) (ε := ε) (values.map fun a => done (.ok a)) = done (.ok values) := by
  induction values with
  | nil => rfl
  | cons a values ih =>
    rw [List.map_cons, joinInRounds, ih]
    rfl

theorem both_done_right (r : Routine σ (Except ε α)) (b : β) :
    both r (done (.ok b)) = r.bind fun result => done (result.map (·, b)) := by
  induction r with
  | done result => cases result <;> rfl
  | pause rest ih => simp [both, secondTurn, bind, ih]
  | read next ih => simp [both, bind, ih]
  | write s rest ih => simp [both, bind, ih]

/-- A group of one goes on as its only member does. -/
theorem joinAll_singleton (r : Routine σ (Except ε α)) :
    joinAll [r] = r.bind fun result => done (result.map ([·])) := by
  have alone : joinInRounds [r] = r.bind fun result => done (result.map ([·])) := by
    rw [joinInRounds, joinInRounds, joinCons, both_done_right, bind_assoc]
    refine congrArg _ (funext fun result => ?_)
    cases result <;> rfl
  have few : [r].length ≤ roundLimit := Nat.le_of_ble_eq_true rfl
  rw [joinAll_of_le few, alone]

/-- The places of the results lie before a place, so that a result there comes in front. -/
theorem Outcomes.insert_of_lt {place : Nat} {a : α} {results : List (Nat × α)}
    (earlier : ∀ r ∈ results, r.1 < place) : insert place a results = (place, a) :: results := by
  cases results with
  | nil => rfl
  | cons r results =>
    have before := earlier r List.mem_cons_self
    obtain ⟨later, b⟩ := r
    rw [insert, if_neg (Nat.not_lt.mpr (Nat.le_of_lt before))]

def finishedSiblings (place : Nat) : List α → List (Sibling σ ε α)
  | [] => []
  | a :: rest => ⟨place, done (.ok a)⟩ :: finishedSiblings (place + 1) rest

theorem takeTurns_done (place : Nat) (a : α) (rest : List α) (results : List (Nat × α))
    (paused : Bool) (earlier : ∀ r ∈ results, r.1 < place) :
    takeTurns (σ := σ) (ε := ε) place (done (.ok a)) ⟨finishedSiblings (place + 1) rest, []⟩
        ⟨results, none⟩ paused =
      done (.ok ((results.map (·.2)).reverse ++ a :: rest)) := by
  induction rest generalizing place a results paused with
  | nil =>
    rw [takeTurns]
    simp [Outcomes.add, Outcomes.failure?, Queue.next?, finishedSiblings, Outcomes.inOrder,
      Outcomes.insert_of_lt earlier]
  | cons b rest ih =>
    have later : ∀ r ∈ (place, a) :: results, r.1 < place + 1 := by
      intro r member
      rcases List.mem_cons.mp member with rfl | inside
      · exact Nat.lt_succ_self _
      · exact Nat.lt_succ_of_lt (earlier r inside)
    have goesOn := ih (place + 1) b ((place, a) :: results) false later
    rw [takeTurns]
    simp [Outcomes.add, Outcomes.failure?, Queue.next?, finishedSiblings,
      Outcomes.insert_of_lt earlier, goesOn]

theorem mapIdx_done (place : Nat) (values : List α) :
    (values.map fun a => (done (.ok a) : Routine σ (Except ε α))).mapIdx
      (fun i routine => Sibling.mk (place + i) routine) = finishedSiblings place values := by
  induction values generalizing place with
  | nil => rfl
  | cons a values ih =>
    have shifted := ih (place + 1)
    rw [List.map_cons, List.mapIdx_cons, finishedSiblings, Nat.add_zero, ← shifted]
    simp [Nat.add_comm, Nat.add_left_comm]

/-- Values that are there are joined at once, in turns. -/
theorem joinInTurns_done (values : List α) :
    joinInTurns (σ := σ) (ε := ε) (values.map fun a => done (.ok a)) = done (.ok values) := by
  have siblings := mapIdx_done (σ := σ) (ε := ε) 0 values
  simp only [Nat.zero_add] at siblings
  rw [joinInTurns, siblings]
  cases values with
  | nil => rfl
  | cons a rest => exact takeTurns_done 0 a rest [] false nofun

/-- A group of which all have succeeded is over, with the results in order. -/
theorem joinAll_done (values : List α) :
    joinAll (σ := σ) (ε := ε) (values.map fun a => done (.ok a)) = done (.ok values) := by
  rw [joinAll]
  split
  · exact joinInRounds_done values
  · exact joinInTurns_done values

end Stencil.Routine
