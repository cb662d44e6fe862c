import Stencil.Proofs.Cache.Loading
import Stencil.Proofs.Rendering.Failing

/-! # Templates that are loaded

A template that is rendered by path comes from the cache or is parsed from what the loader holds. If
all templates that can come from there are as stated then so are those that the store keeps, and
what rendering one relies on is the same at every depth. The induction over embedded templates is
done here.
-/

namespace Stencil

open Evaluation (Confined)
open Routine (Assured)

variable {T : List Node → Prop} {A : Source → Prop} {E : Error → Prop}

/-- The templates that the store keeps are as stated. -/
def Store.Keeps (T : List Node → Prop) (s : Store) : Prop :=
  ∀ path nodes, s.cached? path = some nodes → T nodes

namespace Store.Keeps

theorem of_cache {s t : Store} (kept : s.Keeps T) (cache : t.cache = s.cache) : t.Keeps T :=
  fun path nodes found => kept path nodes (by rwa [Store.cached?, ← cache])

theorem empty : Store.empty.Keeps T := nofun

theorem lasting : Store.Lasting (Store.Keeps T) := fun _ _ kept cache _ => kept.of_cache cache

theorem keep {s : Store} (kept : s.Keeps T) (path : String) {nodes : List Node}
    (holds : T nodes) : (s.keep path nodes).Keeps T := by
  intro other found there
  rw [Store.cached?_keep] at there
  split at there
  · cases there
    exact holds
  · exact kept other found there

end Store.Keeps

/-- What the loader gives is what it holds under the path, or an error of the loader. -/
theorem Loader.load_held {I : Store → Prop} (loader : Loader) (path : String)
    (unloaded : ∀ fault, E (.load path fault)) :
    Assured I (Held E fun bytes => loader.bytes? path = some bytes) (loader.load path) := by
  unfold Loader.load
  cases loader with
  | memory templates =>
    refine .done ?_
    change Held E (fun bytes => templates.lookup path = some bytes) _
    cases templates.lookup path with
    | none => exact unloaded _
    | some bytes => rfl
  | files tree =>
    refine fun _ kept => .pause kept fun _ kept => .done ?_ kept
    change Held E (fun bytes => (Loader.file tree path).toOption = some bytes) _
    cases Loader.file tree path with
    | error fault => exact unloaded fault
    | ok bytes => rfl

/-- A renderer of which all templates are as stated, so that rendering them fails as stated at some
sources. -/
structure Renderer.Sound (T : List Node → Prop) (A : Source → Prop) (E : Error → Prop)
    (renderer : Renderer) : Prop where
  unloaded : ∀ path fault, E (.load path fault)
  parsed : ∀ path bytes, renderer.loader.bytes? path = some bytes →
    Held E T (renderer.grammar.parse ⟨path, bytes⟩)
  tags : renderer.tags.Sound (Store.Keeps T) A E
  templates : ∀ scope : Scope, scope.tags = renderer.tags → ∀ nodes, T nodes →
    (∀ node ∈ nodes, node.Everywhere (Node.Sound A E scope)) ∧
      (scope.renderAll nodes).Ensures (Tells E nodes)

namespace Renderer.Sound

variable {renderer : Renderer} (sound : renderer.Sound T A E)
include sound

/-- What is loaded is parsed, or was kept. -/
theorem load (path : String) : Assured (Store.Keeps T) (Held E T) (renderer.load path) := by
  have fresh : Assured (Store.Keeps T) (Held E T)
      ((renderer.loader.load path).andThen fun text => renderer.parse ⟨path, text⟩) := by
    refine (Loader.load_held renderer.loader path (sound.unloaded path)).bind ?_
    rintro (why | bytes) held
    · exact .done held
    · exact .step (fun _ _ => sound.parsed path bytes held) fun _ kept => kept
  unfold Renderer.load
  dsimp only
  split
  · intro s kept
    refine .read ?_
    split
    · rename_i nodes found
      exact .done (kept path nodes found) kept
    · refine (fresh s kept).bind ?_
      rintro (why | nodes) held
      · exact .done held
      · exact .step (fun _ _ => held) fun _ kept => kept.keep path held
  · exact fresh

/-- A template is rendered with errors as stated where embedded ones are. -/
theorem serialize {scope : Scope} (tags : scope.tags = renderer.tags)
    (embedding : ∀ (source : Source) (path : String), A source →
      Confined (Store.Keeps T) E (fun _ => True) (scope.embedding.render source path))
    {nodes : List Node} (holds : T nodes) :
    Confined (Store.Keeps T) E (fun _ => True) (scope.serialize nodes) := by
  obtain ⟨all, tells⟩ := sound.templates scope tags nodes holds
  have inside : scope.Sound (Store.Keeps T) A E := ⟨tags ▸ sound.tags, embedding⟩
  exact inside.serialize .lasting all tells

/-- Embedding fails as stated, however many templates may embed each other. -/
theorem embedding (levels : Nat) (source : Source) (path : String) (admitted : A source) :
    Confined (Store.Keeps T) E (fun _ => True)
      ((renderer.embedding levels).render source path) := by
  induction levels generalizing source path with
  | zero => exact .throw (sound.tags.raises source _ admitted rfl rfl)
  | succ levels ih =>
    exact (Confined.ofAttempt (sound.load _)).bind fun nodes holds =>
      sound.serialize rfl ih holds

/-- Rendering by path fails as its templates do. -/
theorem renderPath (path : String) :
    Confined (Store.Keeps T) E (fun _ => True) (renderer.renderPath path) :=
  (Confined.ofAttempt (sound.load _)).bind fun _ holds =>
    sound.serialize rfl (sound.embedding _) holds

theorem renderBuffer {buffer : Buffer} (parsed : Held E T (renderer.grammar.parse buffer)) :
    Confined (Store.Keeps T) E (fun _ => True) (renderer.renderBuffer buffer) :=
  (Confined.ofAttempt (.step (fun _ _ => parsed) fun _ kept => kept)).bind fun _ holds =>
    sound.serialize rfl (sound.embedding _) holds

end Renderer.Sound

end Stencil
