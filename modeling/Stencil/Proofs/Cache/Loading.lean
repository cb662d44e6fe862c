import Stencil.Proofs.Rendering.LockStep
import Stencil.Proofs.Rendering.Renderers
import Stencil.Proofs.Tags.Builtin
import Stencil.Proofs.Tags.Memo

/-! # Loading through the cache

A cache serves a supply of templates when what it keeps are parses of that supply and the loader
holds the rest of it. Loading then gives the parse of the supply whether or not the template is
kept, without a pause, and the cache serves the same supply afterwards. So two renderers whose
caches serve one supply render every path the same way.
-/

namespace Stencil

open Comparison (Related)
open Routine (Ended Ends Similar)

/-! ## What a load can do -/

/-- The bytes that a loader holds under a path. -/
def Loader.bytes? (loader : Loader) (path : String) : Option (List UInt8) :=
  match loader with
  | memory templates => templates.lookup path
  | files tree => (file tree path).toOption

/-- The template of a supply under a path. -/
def Grammar.fetch (grammar : Grammar) (supply : String → Option (List UInt8)) (path : String) :
    Except Error (List Node) :=
  match supply path with
  | none => .error (.load path .unregistered)
  | some bytes => grammar.parse ⟨path, bytes⟩

theorem Attempt.ends_ok {α β : Type} {attempt : Attempt α} {next : α → Attempt β}
    {s middle after : Store} {a : α} {result : Except Error β} (first : Ends attempt s (.ok a) middle)
    (second : Ends (next a) middle result after) : Ends (attempt.andThen next) s result after :=
  first.bind second

theorem Attempt.ends_error {α β : Type} {attempt : Attempt α} {s after : Store} {why : Error}
    (first : Ends attempt s (.error why) after) (next : α → Attempt β) :
    Ends (attempt.andThen next) s (.error why) after := first.bind (.done _ _)

namespace Renderer

variable {renderer : Renderer} {templates : List (String × List UInt8)}
  {supply : String → Option (List UInt8)} {before : List (String × List Node)}

/-- What comes out of loading a template, and the store after it: the template is found in the
cache, or it is loaded past the cache, or loading it fails, or it is kept. -/
inductive Loads (renderer : Renderer) (path : String) (s : Store) :
    Except Error (List Node) → Store → Prop
  | found {nodes : List Node} (kept : s.cached? path = some nodes) :
      Loads renderer path s (.ok nodes) s
  | passed (parses : Nat) (off : renderer.config.shouldCache = false) :
      Loads renderer path s (renderer.grammar.fetch renderer.loader.bytes? path) { s with parses }
  | failed {why : Error} (parses : Nat) (missing : s.cached? path = none)
      (fails : renderer.grammar.fetch renderer.loader.bytes? path = .error why) :
      Loads renderer path s (.error why) { s with parses }
  | kept {nodes : List Node} (parses : Nat) (caching : renderer.config.shouldCache = true)
      (missing : s.cached? path = none)
      (parsed : renderer.grammar.fetch renderer.loader.bytes? path = .ok nodes) :
      Loads renderer path s (.ok nodes) (Store.keep { s with parses } path nodes)

/-- A template past the cache is what the loader holds, parsed, and only adds to the count. -/
theorem fresh_ends (memory : renderer.loader = .memory templates) (path : String) (s : Store) :
    ∃ parses, Ends ((renderer.loader.load path).andThen fun text => renderer.parse ⟨path, text⟩) s
      (renderer.grammar.fetch renderer.loader.bytes? path) { s with parses } := by
  rw [memory]
  unfold Grammar.fetch Loader.bytes? Loader.load
  dsimp only
  cases templates.lookup path with
  | none => exact ⟨s.parses, .done _ _⟩
  | some bytes => exact ⟨s.parses + 1, .step _ s⟩

/-- Loading from memory ends without a pause. -/
theorem load_ends (memory : renderer.loader = .memory templates) (path : String) (s : Store) :
    ∃ result after, Ends (renderer.load path) s result after ∧
      renderer.Loads path s result after := by
  obtain ⟨parses, fresh⟩ := fresh_ends memory path s
  unfold load
  dsimp only
  cases caching : renderer.config.shouldCache with
  | false => exact ⟨_, _, fresh, .passed parses caching⟩
  | true =>
    rw [if_pos rfl]
    cases kept : s.cached? path with
    | some nodes =>
      refine ⟨.ok nodes, s, .read ?_, .found kept⟩
      rw [kept]
      exact .done _ s
    | none =>
      cases parsed : renderer.grammar.fetch renderer.loader.bytes? path with
      | error why =>
        refine ⟨.error why, _, .read ?_, .failed parses kept parsed⟩
        rw [kept]
        rw [parsed] at fresh
        exact Attempt.ends_error fresh (keep path)
      | ok nodes =>
        refine ⟨.ok nodes, _, .read ?_, .kept parses caching kept parsed⟩
        rw [kept]
        rw [parsed] at fresh
        exact Attempt.ends_ok fresh (.step _ _)

/-- A load that fails leaves nothing under its path. -/
theorem load_failed (memory : renderer.loader = .memory templates) {s : Store}
    (unkept : renderer.config.shouldCache = false → s.cache = []) {path : String} {why : Error}
    (failed : ((renderer.load path).run s).1 = .error why) :
    ((renderer.load path).run s).2.cached? path = none := by
  obtain ⟨result, after, ends, loads⟩ := load_ends memory path s
  rw [ends.run] at failed ⊢
  cases loads with
  | found => cases failed
  | passed parses off =>
    change s.cache.lookup path = none
    rw [unkept off]
    rfl
  | failed parses missing => exact missing
  | kept => cases failed

/-! ## Supplies -/

/-- A cache of a renderer, grown out of another one, from which the templates of a supply are
served. -/
structure Serves (renderer : Renderer) (supply : String → Option (List UInt8))
    (before cache : List (String × List Node)) : Prop where
  parsed {path : String} {nodes : List Node} (kept : cache.lookup path = some nodes) :
    ∃ bytes, supply path = some bytes ∧ renderer.grammar.parse ⟨path, bytes⟩ = .ok nodes
  loaded {path : String} (missing : cache.lookup path = none) :
    renderer.loader.bytes? path = supply path
  unkept (off : renderer.config.shouldCache = false) : cache = []
  stays {path : String} {nodes : List Node} (kept : before.lookup path = some nodes) :
    cache.lookup path = some nodes

/-- A supply that has the bytes is fetched from by parsing them. -/
theorem fetch_of_some {grammar : Grammar} {path : String} {bytes : List UInt8}
    (held : supply path = some bytes) : grammar.fetch supply path = grammar.parse ⟨path, bytes⟩ := by
  rw [Grammar.fetch, held]

/-- What was fetched is the parse of bytes in the supply. -/
theorem some_of_fetch {grammar : Grammar} {path : String} {nodes : List Node}
    (parsed : grammar.fetch supply path = .ok nodes) :
    ∃ bytes, supply path = some bytes ∧ grammar.parse ⟨path, bytes⟩ = .ok nodes := by
  unfold Grammar.fetch at parsed
  cases held : supply path with
  | none => simp [held] at parsed
  | some bytes => exact ⟨bytes, rfl, by simpa [held] using parsed⟩

/-- Past the cache the loader holds what the supply does. -/
theorem Serves.fetch {s : Store} (serves : renderer.Serves supply before s.cache) {path : String}
    (missing : s.cached? path = none) :
    renderer.grammar.fetch renderer.loader.bytes? path = renderer.grammar.fetch supply path := by
  unfold Grammar.fetch
  rw [serves.loaded missing]

/-- A template that was missing and parses can be kept. -/
theorem Serves.keep {s : Store} (serves : renderer.Serves supply before s.cache) {path : String}
    {nodes : List Node} (missing : s.cached? path = none)
    (caching : renderer.config.shouldCache = true)
    (parsed : renderer.grammar.fetch supply path = .ok nodes) :
    renderer.Serves supply before (s.keep path nodes).cache where
  parsed {other found} kept := by
    rw [← Store.cached?, Store.cached?_keep] at kept
    split at kept
    · rename_i same
      cases kept
      exact same ▸ some_of_fetch parsed
    · exact serves.parsed kept
  loaded {other} absent := by
    rw [← Store.cached?, Store.cached?_keep] at absent
    split at absent
    · cases absent
    · exact serves.loaded absent
  unkept off := by
    rw [caching] at off
    cases off
  stays {other found} kept := by
    have there := serves.stays kept
    rw [← Store.cached?] at there ⊢
    rw [Store.cached?_keep]
    split
    · rename_i same
      rw [same, missing] at there
      cases there
    · exact there

/-- Loading a template gives that of the supply, and the cache goes on serving the supply. -/
theorem load_serves (memory : renderer.loader = .memory templates) {s : Store}
    (serves : renderer.Serves supply before s.cache) (path : String) :
    ∃ parses cache, Ends (renderer.load path) s (renderer.grammar.fetch supply path)
      { s with parses, cache } ∧ renderer.Serves supply before cache := by
  obtain ⟨result, after, ends, loads⟩ := load_ends memory path s
  cases loads with
  | found kept =>
    obtain ⟨bytes, held, parsed⟩ := serves.parsed kept
    rw [fetch_of_some held, parsed]
    exact ⟨s.parses, s.cache, ends, serves⟩
  | passed parses off =>
    have missing : s.cached? path = none := by
      rw [Store.cached?, serves.unkept off]
      rfl
    rw [serves.fetch missing] at ends
    exact ⟨parses, s.cache, ends, serves⟩
  | failed parses missing fails =>
    rw [serves.fetch missing] at fails
    rw [fails]
    exact ⟨parses, s.cache, ends, serves⟩
  | kept parses caching missing parsed =>
    rw [serves.fetch missing] at parsed
    rw [parsed]
    exact ⟨parses, _, ends, serves.keep missing caching parsed⟩

end Renderer

/-! ## Stores with two caches -/

/-- Stores in which pending values have come equally far and the notes are faithful, with a
condition on the cache of each. -/
structure Store.Matches (left right : List (String × List Node) → Prop) (s t : Store) : Prop where
  progress : s.progress = t.progress
  notesLeft : s.notes.Faithful
  notesRight : t.notes.Faithful
  left : left s.cache
  right : right t.cache

namespace Store.Matches

variable {left right : List (String × List Node) → Prop}

theorem progressOf {s t : Store} (related : Matches left right s t) (handle : Handle) :
    s.progressOf handle = t.progressOf handle := by
  unfold Store.progressOf
  rw [related.progress]

theorem setProgress {s t : Store} (related : Matches left right s t) (handle : Handle)
    (progress : Progress) :
    Matches left right (s.setProgress handle progress) (t.setProgress handle progress) where
  progress := by
    unfold Store.setProgress
    rw [related.progress]
  notesLeft := related.notesLeft
  notesRight := related.notesRight
  left := related.left
  right := related.right

theorem write {s t : Store} (related : Matches left right s t) (line : String) :
    Matches left right (s.write line) (t.write line) :=
  ⟨related.progress, related.notesLeft, related.notesRight, related.left, related.right⟩

/-- Waiting for a pending value takes both stores equally far. -/
theorem keptByWaiting : Store.KeptByWaiting (Matches left right) where
  served := by
    intro s t related handle
    rw [related.progressOf handle]
  serve := by
    intro s t related handle
    unfold Store.serve
    rw [related.progressOf handle]
    exact related.setProgress handle _
  finish := by
    intro s t related handle note
    unfold Store.finish
    rw [related.progressOf handle]
    dsimp only
    by_cases ended : (t.progressOf handle).finished = true
    · rw [if_pos ended, if_pos ended]
      exact related
    · rw [if_neg ended, if_neg ended]
      have marked := related.setProgress handle { t.progressOf handle with finished := true }
      cases note with
      | none => exact marked
      | some line => exact marked.write line

/-- Attempts in lock step over stores with two caches. -/
abbrev lockStep (left right : List (String × List Node) → Prop) : Comparison :=
  .lockStep (@keptByWaiting left right)

theorem dates : (lockStep left right).Dates := by
  intro text
  apply Related.ofAttempt
  refine Similar.bind (V := Eq) (Similar.step ?_ ?_) ?_
  · intro s t related
    obtain ⟨_, answer, _⟩ := Tags.patternOf_spec text related.notesLeft
    obtain ⟨_, answer', _⟩ := Tags.patternOf_spec text related.notesRight
    rw [answer, answer']
  · intro s t related
    obtain ⟨_, answer, faithful⟩ := Tags.patternOf_spec text related.notesLeft
    obtain ⟨_, answer', faithful'⟩ := Tags.patternOf_spec text related.notesRight
    rw [answer, answer']
    exact ⟨related.progress, faithful, faithful', related.left, related.right⟩
  · rintro pattern _ rfl
    exact .done (.ok rfl)

end Store.Matches

/-! ## Renderers that serve one supply -/

/-- Renderers from memory with the built-in tags that differ at most in what they hold there and in
whether they keep templates. -/
structure Renderer.Like (a b : Renderer) : Prop where
  grammar : a.grammar = b.grammar
  tags : a.tags = Tags.builtin ∧ b.tags = Tags.builtin
  memory : (∃ templates, a.loader = .memory templates) ∧ ∃ templates, b.loader = .memory templates
  resolve : ∀ path, a.config.resolve path = b.config.resolve path

/-- Both caches serve the supply. -/
abbrev Renderer.Serving (a b : Renderer) (supply : String → Option (List UInt8))
    (before before' : List (String × List Node)) : Store → Store → Prop :=
  Store.Matches (a.Serves supply before) (b.Serves supply before')

/-- Attempts in lock step over stores whose caches both serve the supply. -/
abbrev Renderer.serving (a b : Renderer) (supply : String → Option (List UInt8))
    (before before' : List (String × List Node)) : Comparison :=
  Store.Matches.lockStep (a.Serves supply before) (b.Serves supply before')

namespace Renderer.Like

variable {a b : Renderer} {supply : String → Option (List UInt8)}
  {before before' : List (String × List Node)}

/-- Loading from both renderers ends alike, and both caches serve the supply afterwards. -/
theorem load (like : a.Like b) (path : String) :
    Similar (a.Serving b supply before before') (Ended Eq) (a.load path) (b.load path) := by
  intro s t related
  obtain ⟨⟨_, memory⟩, ⟨_, memory'⟩⟩ := like.memory
  obtain ⟨_, cache, ends, serves⟩ := load_serves memory related.left path
  obtain ⟨_, cache', ends', serves'⟩ := load_serves memory' related.right path
  rw [like.grammar] at ends
  exact ends.sim ends' (.refl .refl _)
    ⟨related.progress, related.notesLeft, related.notesRight, serves, serves'⟩

theorem renderers (like : a.Like b) : (a.serving b supply before before').Renderers a b where
  tags := by
    rw [like.tags.1, like.tags.2]
    exact Tags.builtin_related Store.Matches.dates
  load path := by
    rw [like.resolve path]
    exact like.load _
  hosts := Comparison.hosts_self fun _ _ => .rfl

/-- Rendering a buffer ends alike on both renderers. -/
theorem renderBuffer (like : a.Like b) (buffer : Buffer) :
    (a.serving b supply before before').Related Eq (a.renderBuffer buffer)
      (b.renderBuffer buffer) := by
  apply Related.bind (V := Eq)
  · apply Related.ofAttempt
    apply Similar.step
    · intro s t _
      rw [like.grammar]
      exact .refl .refl _
    · intro s t related
      exact ⟨related.progress, related.notesLeft, related.notesRight, related.left, related.right⟩
  · rintro nodes _ rfl
    exact like.renderers.serialize_scope nodes

/-- A template by its path goes the same way as its bytes, when they are what is supplied. -/
theorem renderPath_renderBuffer (like : a.Like b) (path : String) {bytes : List UInt8}
    (held : supply (a.config.resolve path) = some bytes) :
    (a.serving b supply before before').Related Eq (a.renderPath path)
      (b.renderBuffer ⟨a.config.resolve path, bytes⟩) := by
  apply Related.bind (V := Eq)
  · apply Related.ofAttempt
    intro s t related
    obtain ⟨⟨_, memory⟩, _⟩ := like.memory
    obtain ⟨_, cache, ends, serves⟩ := load_serves memory related.left (a.config.resolve path)
    have parsed := Ends.step (fun s : Store =>
      (b.grammar.parse ⟨a.config.resolve path, bytes⟩, { s with parses := s.parses + 1 })) t
    rw [fetch_of_some held, like.grammar] at ends
    exact ends.sim parsed (.refl .refl _)
      ⟨related.progress, related.notesLeft, related.notesRight, serves, related.right⟩
  · rintro nodes _ rfl
    exact like.renderers.serialize_scope nodes

end Renderer.Like

end Stencil
