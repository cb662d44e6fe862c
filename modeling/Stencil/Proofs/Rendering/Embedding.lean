import Stencil.Proofs.Cache.Supply
import Stencil.Proofs.Tags.Builtin

/-! # Success under embedded templates

Renderers that differ in their tags only, where the tags of the one transfer to those of the other,
embed templates alike, and it does no harm to allow more levels: the success of an embedded template
carries over to more of them.
-/

namespace Stencil

open Attempt (Transfers)
open Comparison (Related)
open Routine (Assured)

variable {renderer : Renderer} {s : Store} {D : Value → Value → Prop} {kept : Value.KeptByAccess D}

namespace Renderer

/-- Success that carries over among the stores that agree with one at the beginning. -/
abbrev transfers (renderer : Renderer) (s : Store) {D : Value → Value → Prop}
    (kept : Value.KeptByAccess D) : Comparison :=
  .transfers (Agrees.lasting renderer s) kept

/-- What fails transfers to everything. -/
theorem transfers_throw {α β : Type} {V : α → β → Prop} (why : Error) (f : Evaluation β) :
    (renderer.transfers s kept).Related V (throw why) f := fun _ _ _ => .error why _

theorem transfers_dates : (renderer.transfers s kept).Dates := by
  intro text
  have assured : Assured (renderer.Agrees s)
      (fun result : Except Error _ => result.toOption = some (Tags.patternOf text s).1)
      ((Routine.step (Tags.patternOf text)).bind fun pattern => .done (.ok pattern)) := by
    refine Assured.bind (P := (· = (Tags.patternOf text s).1))
      (.step (fun _ agrees => agrees.patterns text) fun _ agrees => agrees.patternOf text) ?_
    rintro pattern rfl
    exact .done rfl
  exact .ofAttempt (.of_toOption assured assured fun _ _ => rfl)

/-- Loading from two stores that agree gives one template. -/
theorem load_transfers (path : String) : Transfers (renderer.Agrees s)
    (fun nodes nodes' => nodes = nodes' ∧ renderer.supplied? s path = some nodes)
    (renderer.load path) (renderer.load path) :=
  .of_toOption (renderer.load_assured s path) (renderer.load_assured s path)
    fun _ supplied => ⟨rfl, supplied⟩

abbrev withTags (renderer : Renderer) (tags : Registry) : Renderer := { renderer with tags }

/-- An embedded template transfers to one that may embed more levels. -/
theorem embedding_transfers {tags tags' : Registry}
    (registries : (renderer.transfers s kept).Registries tags tags')
    (hosts : ∀ path nodes, renderer.supplied? s path = some nodes →
      Node.LikeAll (renderer.transfers s kept).Hosts nodes nodes)
    {levels levels' : Nat} (more : levels ≤ levels') (source : Source) (path : String) :
    (renderer.transfers s kept).Related Eq
      (((renderer.withTags tags).embedding levels).render source path)
      (((renderer.withTags tags').embedding levels').render source path) := by
  induction levels generalizing levels' source path with
  | zero => exact transfers_throw _ _
  | succ levels ih =>
    cases levels' with
    | zero => omega
    | succ levels' =>
      apply Related.bind (.ofAttempt (load_transfers (renderer.config.resolve path)))
      rintro nodes _ ⟨rfl, supplied⟩
      have scopes : (renderer.transfers s kept).Scopes
          ⟨tags, (renderer.withTags tags).embedding levels, maxEmbedDepth - levels⟩
          ⟨tags', (renderer.withTags tags').embedding levels', maxEmbedDepth - levels'⟩ :=
        ⟨registries, ih (Nat.le_of_succ_le_succ more)⟩
      exact Scope.serialize_related scopes (hosts _ _ supplied)

end Renderer

end Stencil
