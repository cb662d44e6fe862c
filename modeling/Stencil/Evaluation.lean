import Stencil.Routine.Turns
import Stencil.Store
import Stencil.Value.Access

/-! # Evaluations

An evaluation computes a value or an error from the current data, which it may change, over the
store it shares with its siblings. Changes of the data that were made before an error stay made.
The data itself is never shared: what runs beside others runs on data of its own.
-/

namespace Stencil

/-- A computation of a template over its current data. -/
abbrev Evaluation (α : Type) := ExceptT Error (StateT Value (Routine Store)) α

/-- A routine that may fail. -/
abbrev Attempt (α : Type) := Routine Store (Except Error α)

namespace Attempt

def of (result : Except Error α) : Attempt α := .done result

/-- Goes on with the result of an attempt, unless it failed. -/
def andThen (attempt : Attempt α) (next : α → Attempt β) : Attempt β :=
  attempt.bind fun
    | .ok a => next a
    | .error e => .done (.error e)

def map (f : α → β) (attempt : Attempt α) : Attempt β := attempt.bind fun r => .done (r.map f)

end Attempt

namespace Evaluation

/-- The evaluation of an attempt, which leaves the data as it is. -/
def ofAttempt (attempt : Attempt α) : Evaluation α :=
  ExceptT.mk fun data => attempt.bind fun result => .done (result, data)

/-- Runs an evaluation on the given data. -/
def runOn (evaluation : Evaluation α) (data : Value) : Routine Store (Except Error α × Value) :=
  evaluation.run.run data

/-- The result of an evaluation on data of its own, which is then forgotten. -/
def attemptOn (evaluation : Evaluation α) (data : Value) : Attempt α :=
  (evaluation.runOn data).bind fun result => .done result.1

/-- Runs an evaluation on data derived from the current one, and leaves the current one alone. -/
def isolated (derive : Value → Value) (evaluation : Evaluation α) : Evaluation α :=
  ExceptT.mk fun data => (evaluation.attemptOn (derive data)).bind fun result =>
    .done (result, data)

def data : Evaluation Value := get

def store (f : Store → α × Store) : Evaluation α :=
  ofAttempt ((Routine.step f).bind fun a => .done (.ok a))

end Evaluation

namespace Value

/-- The data of a body: a copy of the entries of a map, or none for other data, with bindings
written in order. -/
def derive (data : Value) (bindings : List (String × Value)) : Value :=
  .map (Entries.insertAll (data.asMap.getD []) bindings)

/-- Waits until a pending value has been suspended `delay` times, by whoever asked for it. Of
`patience` suspensions at most, enough is `delay`. -/
def waitFor (handle : Handle) (delay : Nat) : Nat → Routine Store Unit
  | 0 => .done ()
  | patience + 1 => .read fun s =>
    if (s.progressOf handle).served < delay then
      .write (s.serve handle) (.pause (waitFor handle delay patience))
    else .done ()

def await (handle : Handle) (delay : Nat) (note : Option String) : Routine Store Unit :=
  (waitFor handle delay delay).bind fun _ => .update fun s => s.finish handle note

mutual

/-- Awaits and computes everything deferred inside a value, however deep. Siblings are awaited
together and keep their places. -/
def resolve : Value → Attempt Value
  | pending handle delay note (.ok value) =>
    (await handle delay note).bind fun _ => value.resolve
  | pending handle delay note (.error e) =>
    (await handle delay note).bind fun _ => .done (.error e)
  | lazy _ value => value.resolve
  | array items => Attempt.map array (Routine.joinAll (resolveItems items))
  | map entries => Attempt.map map (Routine.joinAll (resolveEntries entries))
  | value => .done (.ok value)

def resolveItems : List Value → List (Attempt Value)
  | [] => []
  | item :: rest => item.resolve :: resolveItems rest

def resolveEntries : List (String × Value) → List (Attempt (String × Value))
  | [] => []
  | (key, item) :: rest => Attempt.map (key, ·) item.resolve :: resolveEntries rest

end

end Value

end Stencil
