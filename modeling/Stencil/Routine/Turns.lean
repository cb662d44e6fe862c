import Stencil.Routine.Progress
import Stencil.Routine.Rounds

/-! # Routines in turns

The siblings stand in a queue, at first in the order of their places. The one at the front goes on
until it pauses or ends, and stands at the back again when it has paused. The siblings together
pause when two turns in a row ended with a pause, or one did and nobody else is left. They end when
all have ended, or when one has failed and all before it have ended; a failure does not stop those
before it, nor those after it while it waits for them.

A small group of siblings goes on in rounds instead. Both ways give the results in the order of the
siblings. They differ in when the siblings go on, and in which failure wins: in rounds the one that
comes up first, in turns that of the first place.
-/

namespace Stencil.Routine

variable {σ ε α : Type}

/-- A routine with its place among its siblings. -/
structure Sibling (σ ε α : Type) where
  place : Nat
  routine : Routine σ (Except ε α)

/-- Siblings that wait for their turn: the first of them in order, then the others, the last
first. -/
structure Queue (σ ε α : Type) where
  front : List (Sibling σ ε α)
  back : List (Sibling σ ε α)

namespace Queue

def siblings (queue : Queue σ ε α) : List (Sibling σ ε α) := queue.front ++ queue.back.reverse

def routines (queue : Queue σ ε α) : List (Routine σ (Except ε α)) :=
  queue.siblings.map (·.routine)

/-- The queue with one more sibling at its end. -/
def add (queue : Queue σ ε α) (sibling : Sibling σ ε α) : Queue σ ε α :=
  { queue with back := sibling :: queue.back }

/-- The sibling whose turn is next, and the others. -/
def next? (queue : Queue σ ε α) : Option (Sibling σ ε α × Queue σ ε α) :=
  match queue.front with
  | sibling :: front => some (sibling, ⟨front, queue.back⟩)
  | [] =>
    match queue.back.reverse with
    | sibling :: front => some (sibling, ⟨front, []⟩)
    | [] => none

@[simp] theorem siblings_add (queue : Queue σ ε α) (sibling : Sibling σ ε α) :
    (queue.add sibling).siblings = queue.siblings ++ [sibling] := by
  simp [siblings, add]

theorem siblings_of_next? {queue others : Queue σ ε α} {sibling : Sibling σ ε α}
    (next : queue.next? = some (sibling, others)) :
    queue.siblings = sibling :: others.siblings := by
  obtain ⟨front, back⟩ := queue
  cases front with
  | cons first front =>
    simp only [next?, Option.some.injEq, Prod.mk.injEq] at next
    obtain ⟨rfl, rfl⟩ := next
    rfl
  | nil =>
    simp only [next?] at next
    split at next
    · rename_i reversed
      simp only [Option.some.injEq, Prod.mk.injEq] at next
      obtain ⟨rfl, rfl⟩ := next
      simp [siblings, reversed]
    · exact absurd next (by simp)

@[simp] theorem routines_add (queue : Queue σ ε α) (sibling : Sibling σ ε α) :
    (queue.add sibling).routines = queue.routines ++ [sibling.routine] := by
  simp [routines]

theorem routines_of_next? {queue others : Queue σ ε α} {sibling : Sibling σ ε α}
    (next : queue.next? = some (sibling, others)) :
    queue.routines = sibling.routine :: others.routines := by
  simp [routines, siblings_of_next? next]

theorem next?_eq_none_iff {queue : Queue σ ε α} : queue.next? = none ↔ queue.siblings = [] := by
  obtain ⟨front, back⟩ := queue
  cases front with
  | cons first front => simp [next?, siblings]
  | nil => cases reversed : back.reverse <;> simp [next?, siblings, reversed]

end Queue

/-- What came out of the siblings that have ended: the results, that of the last place first, and
the failure of the first place that failed. -/
structure Outcomes (ε α : Type) where
  results : List (Nat × α)
  failed : Option (Nat × ε)

namespace Outcomes

def empty : Outcomes ε α := ⟨[], none⟩

def insert (place : Nat) (a : α) : List (Nat × α) → List (Nat × α)
  | [] => [(place, a)]
  | (later, b) :: rest =>
    if place < later then (later, b) :: insert place a rest else (place, a) :: (later, b) :: rest

def first (place : Nat) (e : ε) : Option (Nat × ε) → Nat × ε
  | some (earlier, known) => if earlier < place then (earlier, known) else (place, e)
  | none => (place, e)

def add (outcomes : Outcomes ε α) (place : Nat) : Except ε α → Outcomes ε α
  | .ok a => { outcomes with results := insert place a outcomes.results }
  | .error e => { outcomes with failed := some (first place e outcomes.failed) }

/-- The failure of the whole group: all that is left comes after it. -/
def failure? (outcomes : Outcomes ε α) (left : Queue σ ε α) : Option ε :=
  match outcomes.failed with
  | some (place, e) => if left.siblings.all fun sibling => place < sibling.place then some e
    else none
  | none => none

def inOrder (outcomes : Outcomes ε α) : List α := (outcomes.results.map (·.2)).reverse

end Outcomes

theorem progress_of_pause {place : Nat} {rest : Routine σ (Except ε α)}
    {waiting others : Queue σ ε α} {next : Sibling σ ε α}
    (turn : waiting.next? = some (next, others)) :
    Progress (next.routine :: (others.add ⟨place, rest⟩).routines)
      (pause rest :: waiting.routines) := by
  refine .goesOn (.pause rest) (.refl _) ?_
  rw [Queue.routines_of_next? turn, Queue.routines_add]
  exact List.perm_append_singleton rest (next.routine :: others.routines)

/-- The group goes on with a sibling whose turn it is; `paused` when the turn before ended with a
pause. -/
def takeTurns (place : Nat) (current : Routine σ (Except ε α)) (waiting : Queue σ ε α)
    (outcomes : Outcomes ε α) (paused : Bool) : Routine σ (Except ε (List α)) :=
  match current with
  | read next => read fun s => takeTurns place (next s) waiting outcomes paused
  | write s rest => write s (takeTurns place rest waiting outcomes paused)
  | pause rest =>
    match _ : waiting.next? with
    | none => pause (takeTurns place rest waiting outcomes false)
    | some (next, others) =>
      let waiting := others.add ⟨place, rest⟩
      if paused then pause (takeTurns next.place next.routine waiting outcomes false)
      else takeTurns next.place next.routine waiting outcomes true
  | done result =>
    let outcomes := outcomes.add place result
    match outcomes.failure? waiting with
    | some e => done (.error e)
    | none =>
      match _ : waiting.next? with
      | none => done (.ok outcomes.inOrder)
      | some (next, others) => takeTurns next.place next.routine others outcomes false
termination_by progress_wellFounded.wrap (current :: waiting.routines)
decreasing_by
  · exact .goesOn (.read _ _) (.refl _) (.refl _)
  · exact .goesOn (.write _ _) (.refl _) (.refl _)
  · exact .goesOn (.pause _) (.refl _) (.refl _)
  · exact progress_of_pause ‹_›
  · exact progress_of_pause ‹_›
  · exact .leaves (.refl _) (by simp [Queue.routines_of_next? ‹_›])

/-- Runs routines in turns, with their results in the order of the routines. -/
def joinInTurns (routines : List (Routine σ (Except ε α))) : Routine σ (Except ε (List α)) :=
  match routines.mapIdx fun place routine => Sibling.mk place routine with
  | [] => done (.ok [])
  | first :: others => takeTurns first.place first.routine ⟨others, []⟩ .empty false

/-! ## Groups -/

/-- How many siblings go on in rounds at most. -/
def roundLimit : Nat := 30

/-- Runs routines as siblings, with their results in the order of the routines. -/
def joinAll (routines : List (Routine σ (Except ε α))) : Routine σ (Except ε (List α)) :=
  if routines.length ≤ roundLimit then joinInRounds routines else joinInTurns routines

theorem joinAll_of_le {routines : List (Routine σ (Except ε α))}
    (few : routines.length ≤ roundLimit) : joinAll routines = joinInRounds routines := if_pos few

end Stencil.Routine
