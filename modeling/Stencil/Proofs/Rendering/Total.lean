import Stencil.Proofs.Grammar.Mustache.Cuts
import Stencil.Proofs.Grammar.Mustache.Spans
import Stencil.Proofs.Rendering.Legible
import Stencil.Proofs.Rendering.Prints
import Stencil.Proofs.Rendering.Sessions

/-! # Mustache templates render

A mustache template asks nothing of its data. Its tags take the one value that they name, and print
nothing for a value without a text; a section is there or not. So once such a template has been read
its rendering only fails as something deferred in the data does.
-/

namespace Stencil

open Evaluation (Confined)
open Grammar.Mustache (Made)
open Routine (Assured)

variable {I : Store → Prop} {E : Error → Prop} {scope : Scope}

/-! ## Nodes -/

section

variable (lasting : Store.Lasting I)
include lasting

/-- A tag that makes a text of any one value does so of what a path leads to. -/
theorem Scope.printing_confined {name : String} {handler : Handler}
    (found : scope.tags.find? name = some handler) {f : Call → String}
    (prints : ∀ call : Call, call.body = none → call.parameters.length = 1 →
      handler call = pure (.string (f call))) (source place : Source) (path : Path) :
    Confined I E (Value.Defers E)
      (scope.render (.tag source name [.identifier place path] none)) := by
  unfold render call
  rw [found]
  refine (renderResolved_confined lasting
    (List.forall_mem_singleton.mpr (identifier_confined place path))).bind ?_
  -- There is one value for the one node, so the handler finds as many parameters as it takes.
  rintro values ⟨one, -⟩
  rw [prints _ rfl one]
  exact .pure (Value.defers_of_whole rfl)

/-- A node of a mustache template fails only as something deferred does. -/
theorem Grammar.Mustache.Made.confined (builtin : scope.tags = Tags.builtin) {node : Node}
    (made : Made node) : Confined I E (Value.Defers E) (scope.render node) := by
  have print : scope.tags.find? "" = some Tags.print := builtin ▸ Tags.find?_print
  have get : scope.tags.find? "get" = some Tags.verbatim := builtin ▸ Tags.find?_verbatim
  induction made with
  | raw _ data =>
    unfold Scope.render
    exact .pure (Value.defers_of_whole rfl)
  | print _ _ path => exact scope.printing_confined lasting print (fun _ => Tags.print_eq) _ _ path
  | get _ _ path => exact scope.printing_confined lasting get (fun _ => Tags.verbatim_eq) _ _ path
  | block _ _ path each ih =>
    unfold Scope.render
    refine (resolved_confined lasting (Scope.identifier_confined _ path)).bind fun value _ => ?_
    split
    · exact forked_confined (Scope.renderAll_confined ih)
    · exact Scope.renderBranches_confined lasting nofun

end

/-! ## Templates -/

/-- A template that has been read is rendered with no failure but those of what is deferred. -/
theorem Renderer.renderBuffer_made {renderer : Renderer} (builtin : renderer.tags = Tags.builtin)
    {buffer : Buffer} {nodes : List Node} (parsed : renderer.grammar.parse buffer = .ok nodes)
    (made : ∀ node ∈ nodes, Made node) (legible : Node.LegibleAll nodes) :
    Confined (fun _ => True) E (fun _ => True) (renderer.renderBuffer buffer) := by
  have read : Confined (fun _ => True) E (· = nodes) (.ofAttempt (renderer.parse buffer)) := by
    refine .ofAttempt (.step (fun _ _ => ?_) fun _ _ => trivial)
    rw [parsed]
    rfl
  refine read.bind ?_
  rintro _ rfl
  have lasting := Store.lasting_true
  have tags : renderer.scope.tags = Tags.builtin := builtin
  have prints : renderer.scope.tags.Each Handler.Prints := tags ▸ Tags.builtin_prints
  exact finished_confined lasting (Scope.renderAll_tells prints legible)
    (Scope.renderAll_confined fun node member => (made node member).confined lasting tags)

/-- A mustache template that is a text and can be read is rendered to a text, with the tags there
are and on all data in which nothing deferred fails, whatever others do to the store meanwhile. -/
theorem Renderer.renders_mustache (renderer : Renderer) (grammar : renderer.grammar = .mustache)
    (builtin : renderer.tags = Tags.builtin) {buffer : Buffer} (text : Utf8.Valid buffer.text)
    {nodes : List Node} (parsed : renderer.grammar.parse buffer = .ok nodes) {data : Value}
    (deferred : data.Defers fun _ => False) :
    Assured (fun _ => True) (fun ended => ∃ rendered, ended.1 = .ok rendered)
      ((renderer.renderBuffer buffer).runOn data) ∧
    ∀ session : Session, session.renderer = renderer →
      ∃ rendered, (session.renderBuffer buffer data).1 = .ok rendered := by
  have read : Grammar.Mustache.parse buffer = .ok nodes := by rwa [grammar] at parsed
  obtain ⟨_, covered⟩ := Grammar.Mustache.parse_covered read
  have renders : Assured (fun _ => True) (fun ended => ∃ rendered, ended.1 = .ok rendered)
      ((renderer.renderBuffer buffer).runOn data) := by
    refine (renderBuffer_made builtin parsed covered.each
      (Grammar.Mustache.parse_legible text read) data deferred).mono ?_
    rintro ⟨result, left⟩ ⟨held, -⟩
    cases result with
    | error why => exact held.elim
    | ok rendered => exact ⟨rendered, rfl⟩
  refine ⟨renders, ?_⟩
  rintro session rfl
  rw [Session.renderBuffer_result]
  exact (renders _ trivial).run.1

/-- A template that names a value three times, in a section that is not closed. -/
private def greeting : Buffer :=
  ⟨"t", Utf8.encode "Grüße, \x7b\x7bname\x7d\x7d\x7b\x7b#name\x7d\x7d\x7b\x7b\x7bname\x7d\x7d\x7d"⟩

/-- A name that is no UTF-8 is printed in a section that is not closed. -/
theorem Renderer.renders_mustache_greeting :
    let data : Value := .map [("name", .bytes [0xff])]
    Utf8.Valid greeting.text ∧ data.Defers (fun _ => False) ∧
      ∃ nodes rendered, Grammar.mustache.parse greeting = .ok nodes ∧
        ((Session.start (.mustache (.memory []))).renderBuffer greeting data).1 = .ok rendered := by
  intro data
  have text : Utf8.Valid greeting.text := Utf8.valid_encode _
  have deferred : data.Defers fun _ => False := Value.defers_of_whole rfl
  have reads : (Grammar.mustache.parse greeting).isOk = true := by decide +kernel
  cases parsed : Grammar.mustache.parse greeting with
  | error why =>
    rw [parsed] at reads
    cases reads
  | ok nodes =>
    obtain ⟨-, sessions⟩ := renders_mustache (.mustache (.memory [])) rfl rfl text parsed deferred
    obtain ⟨rendered, ended⟩ := sessions (.start _) rfl
    exact ⟨text, deferred, nodes, rendered, rfl, ended⟩

end Stencil
