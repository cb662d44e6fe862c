import Stencil.Proofs.Cache.Loading
import Stencil.Proofs.Rendering.Transfer

/-! # What a store supplies

Of the store that evaluations share, a template can tell only which nodes come from loading a path
and which pattern comes from reading the text of one. Two stores agree when they give the same
there. Loading, reading patterns and waiting all keep the agreement with a store at the beginning,
and their results are told by that store alone.
-/

namespace Stencil

open Routine (Assured)

variable {renderer : Renderer} {s t : Store} {I : Store → Prop} {path : String}

namespace Renderer

/-- The nodes of a template past the cache. -/
def parsed? (renderer : Renderer) (path : String) : Option (List Node) :=
  (renderer.grammar.fetch renderer.loader.bytes? path).toOption

/-- The nodes of a template, from the cache when templates are kept and it is among them. -/
def supplied? (renderer : Renderer) (s : Store) (path : String) : Option (List Node) :=
  if renderer.config.shouldCache then (s.cached? path).or (renderer.parsed? path)
  else renderer.parsed? path

/-- The second store gives the templates and the date patterns that the first does. -/
structure Agrees (renderer : Renderer) (s t : Store) : Prop where
  templates (path : String) : renderer.supplied? t path = renderer.supplied? s path
  patterns (text : String) : (Tags.patternOf text t).1 = (Tags.patternOf text s).1

theorem Agrees.refl (renderer : Renderer) (s : Store) : renderer.Agrees s s :=
  ⟨fun _ => rfl, fun _ => rfl⟩

theorem Agrees.lasting (renderer : Renderer) (s : Store) : Store.Lasting (renderer.Agrees s) := by
  intro t t' agrees cache notes
  constructor
  case templates =>
    intro path
    rw [← agrees.templates path]
    unfold supplied? Store.cached?
    rw [cache]
  case patterns =>
    intro text
    rw [← agrees.patterns text]
    exact Tags.patternOf_congr notes text

/-- Keeping a template changes what is supplied under its own path alone. -/
theorem supplied?_keep (t : Store) (path : String) (nodes : List Node) (other : String) :
    renderer.supplied? (t.keep path nodes) other =
      if renderer.config.shouldCache ∧ other = path then some nodes
      else renderer.supplied? t other := by
  unfold supplied?
  by_cases caching : renderer.config.shouldCache = true
  · rw [if_pos caching, if_pos caching, Store.cached?_keep]
    by_cases same : other = path
    · rw [if_pos same, if_pos ⟨caching, same⟩]
      rfl
    · rw [if_neg same, if_neg fun both => same both.2]
  · rw [if_neg caching, if_neg caching, if_neg fun both => caching both.1]

/-- A template can be kept where it is supplied anyway. -/
theorem Agrees.keep (agrees : renderer.Agrees s t) {nodes : List Node}
    (supplied : renderer.supplied? s path = some nodes) :
    renderer.Agrees s (t.keep path nodes) where
  templates other := by
    rw [supplied?_keep]
    split
    · rename_i both
      rw [both.2, supplied]
    · exact agrees.templates other
  patterns text := by
    rw [← agrees.patterns text]
    exact Tags.patternOf_congr (s := t) (t := t.keep path nodes) rfl text

/-- A pattern that is read is kept where it does not change what others read. -/
theorem Agrees.patternOf (agrees : renderer.Agrees s t) (text : String) :
    renderer.Agrees s (Tags.patternOf text t).2 where
  templates path := by
    rw [← agrees.templates path, supplied?, Store.cached?, Tags.patternOf_cache]
    rfl
  patterns other := by rw [Tags.patternOf_patternOf, agrees.patterns other]

/-! ## Loading -/

/-- Loading past the cache comes to the parse of what the loader holds. -/
theorem fresh_assured (renderer : Renderer) (lasting : Store.Lasting I) (path : String) :
    Assured I (fun result => result.toOption = renderer.parsed? path)
      ((renderer.loader.load path).andThen fun text => renderer.parse ⟨path, text⟩) := by
  have loaded : Assured I (fun result => result.toOption = renderer.loader.bytes? path)
      (renderer.loader.load path) := by
    unfold Loader.load Loader.bytes?
    cases renderer.loader with
    | memory templates =>
      dsimp only
      cases templates.lookup path <;> exact .done rfl
    | files tree =>
      dsimp only
      intro _ kept
      refine .pause kept fun _ kept => .done ?_ kept
      cases Loader.file tree path <;> rfl
  apply loaded.bind
  unfold parsed? Grammar.fetch
  intro result same
  rw [← same]
  cases result with
  | error why => exact .done rfl
  | ok bytes => exact .step (fun _ _ => rfl) fun t kept => lasting t _ kept rfl rfl

/-- Loading gives what the store at the beginning supplies, and keeps the agreement with it. -/
theorem load_assured (renderer : Renderer) (s : Store) (path : String) :
    Assured (renderer.Agrees s) (fun result => result.toOption = renderer.supplied? s path)
      (renderer.load path) := by
  have fresh := renderer.fresh_assured (Agrees.lasting renderer s) path
  unfold load
  dsimp only
  by_cases caching : renderer.config.shouldCache = true
  · rw [if_pos caching]
    intro t agrees
    apply Routine.Keeps.read
    have supplied := agrees.templates path
    rw [supplied?, if_pos caching] at supplied
    cases found : t.cached? path with
    | some nodes =>
      rw [found] at supplied
      exact .done supplied agrees
    | none =>
      rw [found, Option.none_or] at supplied
      refine (fresh t agrees).bind ?_
      rw [supplied]
      intro result same
      cases result with
      | error why => exact .done same
      | ok nodes => exact .step (fun _ _ => same) fun _ agrees => agrees.keep same.symm
  · rw [if_neg caching]
    unfold supplied?
    rw [if_neg caching]
    exact fresh

end Renderer

end Stencil
