import Stencil.Routine.Basic

/-! # Routines in rounds

In each round every sibling that has not ended goes on, in order, until it pauses or ends. The
siblings together pause once after a round, and end as soon as one of them fails.
-/

namespace Stencil.Routine

variable {σ ε α β γ : Type}

/-- The rest of a round in which the first sibling has paused: the second goes on until it pauses
or ends, and `resume` continues with what is left of it after the round. -/
def secondTurn (resume : Routine σ (Except ε β) → Routine σ (Except ε γ)) :
    Routine σ (Except ε β) → Routine σ (Except ε γ)
  | done (.error e) => done (.error e)
  | done (.ok b) => pause (resume (done (.ok b)))
  | pause rest => pause (resume rest)
  | read next => read fun s => secondTurn resume (next s)
  | write s rest => write s (secondTurn resume rest)

/-- Runs two routines as siblings. -/
def both : Routine σ (Except ε α) → Routine σ (Except ε β) → Routine σ (Except ε (α × β))
  | done (.error e), _ => done (.error e)
  | done (.ok a), second => second.bind fun result => done (result.map fun b => (a, b))
  | pause rest, second => secondTurn (both rest) second
  | read next, second => read fun s => both (next s) second
  | write s rest, second => write s (both rest second)

/-- Runs a routine beside several others, with its result in front of theirs. -/
def joinCons (first : Routine σ (Except ε α)) (others : Routine σ (Except ε (List α))) :
    Routine σ (Except ε (List α)) :=
  (both first others).bind fun result => done (result.map fun (a, as) => a :: as)

/-- Runs routines in rounds, with their results in the order of the routines. -/
def joinInRounds : List (Routine σ (Except ε α)) → Routine σ (Except ε (List α))
  | [] => done (.ok [])
  | first :: others => joinCons first (joinInRounds others)

end Stencil.Routine
