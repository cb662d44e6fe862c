import Stencil.Proofs.Rendering.Scopes
import Stencil.Renderer

/-! # Renderers that compare

Of a renderer a render uses the tags and what comes of loading templates. So under any comparison
renderers with tags that compare, which load templates alike, render every template alike, however
many are embedded in it.
-/

namespace Stencil

open Comparison (Related)

/-- Renderers with tags that compare, which load templates alike. -/
structure Comparison.Renderers (C : Comparison) (a b : Renderer) : Prop where
  tags : C.Registries a.tags b.tags
  load : ∀ path, C.Rel Eq (a.load (a.config.resolve path)) (b.load (b.config.resolve path))
  hosts : ∀ action, C.Hosts action action

namespace Comparison.Renderers

variable {C : Comparison} {a b : Renderer} (same : C.Renderers a b)
include same

theorem serialize {depth : Nat} {x y : Embedding} (embeddings : ∀ source path,
      C.Related Eq (x.render source path) (y.render source path)) (nodes : List Node) :
    C.Related Eq (Scope.serialize ⟨a.tags, x, depth⟩ nodes)
      (Scope.serialize ⟨b.tags, y, depth⟩ nodes) :=
  Scope.serialize_related ⟨same.tags, embeddings⟩ (Node.likeAll_refl same.hosts nodes)

/-- Templates are embedded the same way, however many levels may lie inside of each other. -/
theorem embedding (levels : Nat) (source : Source) (path : String) :
    C.Related Eq ((a.embedding levels).render source path)
      ((b.embedding levels).render source path) := by
  induction levels generalizing source path with
  | zero => exact .throw _
  | succ levels ih =>
    apply Related.bind (.ofAttempt (same.load path))
    rintro nodes _ rfl
    exact same.serialize ih nodes

/-- Renderers that compare give scopes that do. -/
theorem serialize_scope (nodes : List Node) :
    C.Related Eq (a.scope.serialize nodes) (b.scope.serialize nodes) :=
  same.serialize (same.embedding maxEmbedDepth) nodes

/-- Renderers that compare render paths alike. -/
theorem renderPath (path : String) :
    C.Related Eq (a.renderPath path) (b.renderPath path) := by
  apply Related.bind (.ofAttempt (same.load path))
  rintro nodes _ rfl
  exact same.serialize_scope nodes

end Comparison.Renderers

end Stencil
