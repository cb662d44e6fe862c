import Stencil.Proofs.Rendering.LogOrder
import Stencil.Proofs.Rendering.Punctual
import Stencil.Proofs.Rendering.Spelling
import Stencil.Proofs.Value.Resolution
import Stencil.Tags.Probe

/-! # Suspending

A call can suspend before it logs, and a tag can leave a pending value behind that suspends before
it logs. Either is punctual, a pending value as long as nobody else waits for it: its handle is its
own when it was drawn for it.
-/

namespace Stencil

open Evaluation (Gives)

variable {s t : Store} {handle : Handle}

/-! ## How far pending values have come -/

namespace Store

theorem progressOf_setProgress (s : Store) (handle : Handle) (progress : Progress) :
    (s.setProgress handle progress).progressOf handle = progress := by
  unfold progressOf setProgress
  rw [List.lookup_cons_self]
  rfl

theorem setProgress_gains (s : Store) (handle : Handle) (progress : Progress) :
    s.Gains {handle} [] (s.setProgress handle progress) where
  others other outside := by
    have different : other ≠ handle := outside
    unfold progressOf setProgress
    rw [lookup_cons_ne different, lookup_filter_ne different]
  log := (List.append_nil _).symm

theorem finish_gains (unfinished : (s.progressOf handle).finished = false) (note : Option String) :
    s.Gains {handle} note.toList (s.finish handle note) := by
  have marked := s.setProgress_gains handle { s.progressOf handle with finished := true }
  unfold finish
  dsimp only
  rw [unfinished, if_neg Bool.false_ne_true]
  cases note with
  | none => exact marked
  | some line => exact ⟨marked.others, by simp [write, setProgress]⟩

/-- No value that is still to be made has come any further. -/
def Fresh (s : Store) : Prop := ∀ n, s.made ≤ n → s.progressOf (.made n) = ⟨0, false⟩

theorem fresh_empty : empty.Fresh := fun _ _ => rfl

end Store

/-! ## Suspending -/

/-- A call that suspends and then logs a line. -/
theorem punctual_suspend {α : Type} (result : α) (line : String) (n : Nat) (s : Store) :
    Punctual ∅ result n (fun k => if k = n then [line] else [])
      ((Tags.suspend n).bind fun _ => .read fun s => .write (s.write line) (.done result)) s := by
  induction n generalizing s with
  | zero => exact fun t _ => ⟨t.write line, ⟨fun _ _ => rfl, rfl⟩, rfl⟩
  | succ n ih =>
    refine fun t _ => ⟨t, _, .refl _ t, rfl, (ih t).congr fun k _ => ?_⟩
    exact if_congr Nat.succ_inj.symm rfl rfl

/-- What is left of waiting for a pending value after some suspensions. -/
theorem punctual_waitFor {α : Type} (result : α) (note : Option String) {delay served : Nat}
    (patience : Nat) (all : served + patience = delay) (s : Store)
    (progress : s.progressOf handle = ⟨served, false⟩) :
    Punctual {handle} result patience (fun k => if k = patience then note.toList else [])
      (((Value.waitFor handle delay patience).bind fun _ =>
        .update fun s => s.finish handle note).bind fun _ => .done result) s := by
  induction patience generalizing served s with
  | zero =>
    intro t same
    have unfinished : (t.progressOf handle).finished = false := by rw [same handle rfl, progress]
    exact ⟨t.finish handle note, t.finish_gains unfinished note, rfl⟩
  | succ patience ih =>
    intro t same
    have there : t.progressOf handle = ⟨served, false⟩ := (same handle rfl).trans progress
    have early : (t.progressOf handle).served < delay := by
      rw [there]
      change served < delay
      omega
    have further : (t.serve handle).progressOf handle = ⟨served + 1, false⟩ := by
      rw [Store.serve, Store.progressOf_setProgress, there]
    refine ⟨t.serve handle, _, t.setProgress_gains handle _, ?_,
      (ih (by omega) (t.serve handle) further).congr fun k _ => ?_⟩
    · rw [Value.waitFor]
      change Routine.turn (Routine.bind (Routine.bind (if _ then _ else _) _) _) t = _
      rw [if_pos early]
      rfl
    · exact if_congr Nat.succ_inj.symm rfl rfl

/-- The body of an item: a call that suspends, logs its label and gives it. -/
def Timed.suspended (entry : Timed) : Attempt (List Value) :=
  (Tags.suspend entry.ticks).bind fun _ =>
    .read fun s => .write (s.write entry.label) (.done (.ok [.string entry.label]))

/-- A deferred value: its suspensions, what it logs at its end, and what it becomes. -/
structure Deferral where
  delay : Nat
  note : Option String
  outcome : Except Error Value

namespace Deferral

def value (d : Deferral) (n : Nat) : Value := .pending (.made n) d.delay d.note d.outcome

def values (first : Nat) (deferrals : List Deferral) : List Value :=
  (deferrals.zipIdx first).map fun x => x.1.value x.2

/-- A deferral at its start resolves punctually, and notes itself when it is due. -/
theorem punctual {d : Deferral} (settled : ∀ v, d.outcome = .ok v → v.Settled) {n : Nat}
    (progress : s.progressOf (.made n) = ⟨0, false⟩) :
    Punctual {.made n} d.outcome d.delay (fun k => if k = d.delay then d.note.toList else [])
      (d.value n).resolve s := by
  have awaited := punctual_waitFor d.outcome d.note d.delay (Nat.zero_add _) s progress
  obtain ⟨delay, note, outcome⟩ := d
  cases outcome with
  | ok v =>
    rw [value, Value.resolve, settled v rfl]
    exact awaited
  | error e =>
    rw [value, Value.resolve]
    exact awaited

end Deferral

/-- A pending value that logs its label and becomes it. -/
def Timed.deferral (entry : Timed) : Deferral :=
  ⟨entry.ticks, some entry.label, .ok (.string entry.label)⟩

/-! ## Tags that suspend -/

namespace Scope

variable {scope : Scope} {data : Value} {parameters : List Node} {place : Source} {delay : Int64}

/-- The parameters give a delay and a label. -/
def Asks (scope : Scope) (parameters : List Node) (data : Value) (entry : Timed) : Prop :=
  ∃ delay : Int64, delay.toInt.toNat = entry.ticks ∧
    Gives (scope.renderResolved parameters) data [.int delay, .string entry.label]

/-- Evaluating the node leaves behind a new pending value. -/
def Leaves (scope : Scope) (data : Value) (node : Node) (d : Deferral) : Prop :=
  (scope.render node).runOn data =
    .read fun s => .write s.draw.2 (.done (.ok (d.value s.made), data))

theorem call_runOn {name : String} {handler : Handler}
    (found : scope.tags.find? name = some handler) {values : List Value}
    (given : Gives (scope.renderResolved parameters) data values) :
    (scope.render (.tag place name parameters none)).runOn data =
      (handler { name, parameters := values, body := none, source := place,
                 tagNames := scope.tags.names, embeds := scope.embeds,
                 depth := scope.depth }).runOn data := by
  rw [render, call, found]
  exact given.runOn_bind _

/-- A call of `defer` leaves a pending value with the delay and the text it was asked for. -/
theorem leaves_defer {entry : Timed} (defers : scope.tags.find? "defer" = some Tags.defer)
    (asked : scope.Asks parameters data entry) :
    scope.Leaves data (.tag place "defer" parameters none) entry.deferral := by
  obtain ⟨delay, same, given⟩ := asked
  rw [Leaves, call_runOn defers given, Timed.deferral, ← same]
  rfl

theorem leaves_boom {why : String} (booms : scope.tags.find? "boom" = some Tags.boom)
    (given : Gives (scope.renderResolved parameters) data [.string why, .int delay]) :
    scope.Leaves data (.tag place "boom" parameters none)
      ⟨delay.toInt.toNat, none, .error (.tag "boom" (.stated why) place)⟩ := by
  rw [Leaves, call_runOn booms given]
  rfl

theorem wait_attemptOn {entry : Timed} (waits : scope.tags.find? "wait" = some Tags.wait)
    (asked : scope.Asks parameters data entry) :
    (scope.renderAll [.tag place "wait" parameters none]).attemptOn data = entry.suspended := by
  obtain ⟨delay, same, given⟩ := asked
  rw [Evaluation.attemptOn, renderAll, Evaluation.runOn_bind, call_runOn waits given,
    Timed.suspended, ← same, Tags.wait]
  -- The count of the parameters is checked at once; all else stands behind the suspension.
  change Routine.bind (Routine.bind (Routine.bind (Routine.bind (Routine.bind _ _) _) _) _) _ = _
  simp only [Routine.bind_assoc]
  refine congrArg _ (funext fun _ => ?_)
  simp only [renderAll]
  rfl

/-- Nodes that leave pending values behind draw their handles one after the other. -/
theorem renderAll_leaves {nodes : List Node} {deferrals : List Deferral}
    (each : List.Forall₂ (scope.Leaves data) nodes deferrals) (s : Store) :
    ((scope.renderAll nodes).runOn data).run s =
      ((.ok (Deferral.values s.made deferrals), data),
        { s with made := s.made + deferrals.length }) := by
  induction each generalizing s with
  | nil =>
    rw [renderAll]
    rfl
  | @cons node d nodes deferrals first _ ih =>
    have made : s.made + (deferrals.length + 1) = s.made + 1 + deferrals.length := by omega
    rw [renderAll, Evaluation.runOn_bind, first, Deferral.values, List.zipIdx_cons, List.map_cons,
      List.length_cons, made]
    change ((scope.renderAll nodes >>= fun values =>
      Pure.pure (d.value s.made :: values)).runOn data).run s.draw.2 = _
    rw [Evaluation.runOn_bind, Routine.run_bind, ih]
    rfl

/-- Siblings that leave deferrals are resolved together, after all of them have been rendered. -/
theorem serialize_leaves {nodes : List Node} {deferrals : List Deferral}
    (each : List.Forall₂ (scope.Leaves data) nodes deferrals) {result : Except Error String}
    (ended : (spell nodes (Deferral.values s.made deferrals)).run
      { s with made := s.made + deferrals.length } = (result, t)) :
    ((scope.serialize nodes).runOn data).run s = ((result, data), t) := by
  rw [serialize, finished_eq, Evaluation.runOn_bind, Routine.run_bind, renderAll_leaves each]
  dsimp only
  rw [Evaluation.runOn_ofAttempt, Routine.run_bind, ended]
  rfl

end Scope

end Stencil
