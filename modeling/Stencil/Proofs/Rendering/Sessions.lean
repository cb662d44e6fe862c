import Stencil.Proofs.Evaluation
import Stencil.Session

/-! # Rendering in a session

A session runs the evaluation of its renderer over its store, with nobody to pause for. So it ends
as the evaluation guarantees, and a template that parses is rendered as its nodes are.
-/

namespace Stencil

open Routine (Assured)

variable {session : Session} {renderer : Renderer} {buffer : Buffer} {nodes : List Node}

/-- A buffer is rendered as its nodes are, with one more parse. -/
theorem Renderer.renderBuffer_run (parsed : renderer.grammar.parse buffer = .ok nodes)
    (data : Value) (s : Store) : ((renderer.renderBuffer buffer).runOn data).run s =
      ((renderer.scope.serialize nodes).runOn data).run { s with parses := s.parses + 1 } := by
  unfold renderBuffer
  rw [Evaluation.runOn_bind, Evaluation.runOn_ofAttempt, Routine.bind_assoc, Routine.run_bind,
    parse, Routine.step]
  simp only [Routine.run, parsed]
  rfl

namespace Session

theorem renderBuffer_result (session : Session) (buffer : Buffer) (data : Value) :
    (session.renderBuffer buffer data).1 = (((session.renderer.renderBuffer buffer).runOn data).run
      { session.store with notes := .empty }).1.1 := by
  simp only [renderBuffer, withFreshNotes, evaluate, attempt, Evaluation.attemptOn, Routine.run_bind,
    Routine.run]

theorem renderPath_result (session : Session) (path : String) (data : Value) :
    (session.renderPath path data).1 =
      (((session.renderer.renderPath path).runOn data).run session.store).1.1 := by
  simp only [renderPath, evaluate, attempt, Evaluation.attemptOn, Routine.run_bind, Routine.run]

/-- In a session nodes that are a text are rendered as that text. -/
theorem renderBuffer_of_gives {text : String} {data : Value}
    (parsed : session.renderer.grammar.parse buffer = .ok nodes)
    (gives : Evaluation.Gives (session.renderer.scope.serialize nodes) data text) :
    (session.renderBuffer buffer data).1 = .ok text := by
  rw [renderBuffer_result, Renderer.renderBuffer_run parsed, gives]
  rfl

end Session

end Stencil
