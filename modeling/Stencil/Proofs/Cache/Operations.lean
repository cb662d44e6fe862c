import Stencil.Proofs.Cache.Loading
import Stencil.Session

/-! # The cache over a history of operations

A session is tracked together with the bytes that its kept templates were parsed from. Every
operation of a host keeps the invariant that each kept template is the parse of the bytes behind
it, under its own path, and that nothing is kept while caching is off.
-/

namespace Stencil

/-! ## Evaluations of a session -/

/-- Sessions over related stores evaluate alike, and are left over related stores. -/
theorem Session.evaluate_lockStep {α : Type} {R : Store → Store → Prop}
    {kept : Store.KeptByWaiting R} {e f : Evaluation α}
    (same : (Comparison.lockStep kept).Related Eq e f)
    {a b : Session} (related : R a.store b.store) (data : Value) :
    (a.evaluate e data).1 = (b.evaluate f data).1 ∧
      R (a.evaluate e data).2.store (b.evaluate f data).2.store := by
  obtain ⟨results, stores⟩ := (same.attemptOn (x := data) rfl _ _ related).run
  exact ⟨results.eq, stores⟩

/-! ## Histories -/

/-- What a host does with a renderer; the notes that it renders with are its own choice. -/
inductive Operation
  | renderPath (path : String) (data : Value)
  | renderBuffer (buffer : Buffer) (data : Value)
  | parse (buffer : Buffer)
  | uncache (path : String)
  | clearCache
  | setCaching (on : Bool)
  | insert (path : String) (bytes : List UInt8)
  | takeNotes (notes : Notes) (faithful : notes.Faithful)

def Operation.apply : Operation → Session → Session
  | renderPath path data, session => (session.renderPath path data).2
  | renderBuffer buffer data, session => (session.renderBuffer buffer data).2
  | parse buffer, session => (session.parse buffer).2
  | uncache path, session => (session.uncache path).2
  | clearCache, session => session.clearCache
  | setCaching on, session => session.setCaching on
  | insert path bytes, session => session.insert path bytes
  | takeNotes notes _, session => { session with store := { session.store with notes } }

/-- A session with the bytes that its kept templates were parsed from. -/
structure Tracked where
  session : Session
  remembered : List (String × List UInt8)

namespace Tracked

def start (renderer : Renderer) : Tracked := ⟨Session.start renderer, []⟩

/-- The bytes behind a path: those remembered when its template is kept, and otherwise those that
the loader holds. -/
def source (t : Tracked) (path : String) : Option (List UInt8) :=
  if (t.session.store.cached? path).isSome then t.remembered.lookup path
  else t.session.renderer.loader.bytes? path

/-- After an operation the bytes behind each kept template are remembered. A template that was kept
already has its bytes from then; one that is new was loaded during the operation. -/
def after (t : Tracked) (operation : Operation) : Tracked where
  session := operation.apply t.session
  remembered := (operation.apply t.session).store.cache.filterMap fun entry =>
    (t.source entry.1).map (entry.1, ·)

def run (t : Tracked) (operations : List Operation) : Tracked := operations.foldl after t

/-- The same renderer with caching off, over a loader that holds what is remembered in place of
what it held there. -/
def reference (t : Tracked) : Session :=
  (t.remembered.foldr (fun entry session => session.insert entry.1 entry.2) t.session).setCaching
    false

/-! ## The invariant -/

theorem lookup_filterMap (source : String → Option (List UInt8))
    (cache : List (String × List Node)) (path : String) :
    (cache.filterMap fun entry => (source entry.1).map (entry.1, ·)).lookup path =
      if (cache.lookup path).isSome then source path else none := by
  induction cache with
  | nil => rfl
  | cons entry cache ih =>
    obtain ⟨name, nodes⟩ := entry
    by_cases same : path = name
    · subst same
      cases held : source path with
      | none => simp [held, ih]
      | some bytes => simp [held]
    · rw [lookup_cons_ne same]
      cases held : source name with
      | none => simp [held, ih]
      | some bytes => simp [held, lookup_cons_ne same, ih]

/-- After an operation exactly the templates that are kept are remembered, with the bytes they had.
-/
theorem remembered_after (t : Tracked) (operation : Operation) (path : String) :
    (t.after operation).remembered.lookup path =
      if ((t.after operation).session.store.cached? path).isSome then t.source path else none :=
  lookup_filterMap t.source _ path

/-- A renderer from memory with the built-in tags: every template it keeps is the parse of the
bytes that are remembered for it, and while caching is off it keeps none. -/
structure Sound (grammar : Grammar) (t : Tracked) : Prop where
  parser : t.session.renderer.grammar = grammar
  tags : t.session.renderer.tags = Tags.builtin
  memory : ∃ templates, t.session.renderer.loader = .memory templates
  notes : t.session.store.notes.Faithful
  parsed {path : String} {nodes : List Node} (kept : t.session.store.cached? path = some nodes) :
    ∃ bytes, t.remembered.lookup path = some bytes ∧ grammar.parse ⟨path, bytes⟩ = .ok nodes
  forgotten {path : String} (missing : t.session.store.cached? path = none) :
    t.remembered.lookup path = none
  unkept (off : t.session.renderer.config.shouldCache = false) : t.session.store.cache = []

/-- A renderer from memory is sound at its start. -/
theorem sound_start (grammar : Grammar) (templates : List (String × List UInt8))
    (config : Config) : Sound grammar (start ⟨grammar, Tags.builtin, .memory templates, config⟩) where
  parser := rfl
  tags := rfl
  memory := ⟨templates, rfl⟩
  notes := Notes.faithful_empty
  parsed := nofun
  forgotten _ := rfl
  unkept _ := rfl

namespace Sound

variable {grammar : Grammar} {t : Tracked}

/-- A kept template is the parse of the bytes behind its path. -/
theorem source_kept (sound : Sound grammar t) {path : String} {nodes : List Node}
    (kept : t.session.store.cached? path = some nodes) :
    ∃ bytes, t.source path = some bytes ∧ grammar.parse ⟨path, bytes⟩ = .ok nodes := by
  obtain ⟨bytes, held, parsed⟩ := sound.parsed kept
  exact ⟨bytes, by rw [source, kept, ← held]; rfl, parsed⟩

/-- The cache of a sound renderer serves the bytes behind each path. -/
theorem serves (sound : Sound grammar t) :
    t.session.renderer.Serves t.source t.session.store.cache t.session.store.cache where
  parsed kept := by
    rw [sound.parser]
    exact sound.source_kept kept
  loaded missing := by
    change t.session.store.cached? _ = none at missing
    rw [source, missing]
    rfl
  unkept := sound.unkept
  stays := id

theorem like (sound : Sound grammar t) : t.session.renderer.Like t.session.renderer :=
  ⟨rfl, ⟨sound.tags, sound.tags⟩, ⟨sound.memory, sound.memory⟩, fun _ => rfl⟩

/-- A tracked session is sound after an operation when the templates it keeps then are parses of
what was behind their paths before. -/
theorem after_of (operation : Operation)
    (tags : (operation.apply t.session).renderer.tags = Tags.builtin)
    (parser : (operation.apply t.session).renderer.grammar = grammar)
    (memory : ∃ templates, (operation.apply t.session).renderer.loader = .memory templates)
    (notes : (operation.apply t.session).store.notes.Faithful)
    (unkept : (operation.apply t.session).renderer.config.shouldCache = false →
      (operation.apply t.session).store.cache = [])
    (parsed : ∀ path nodes, (operation.apply t.session).store.cached? path = some nodes →
      ∃ bytes, t.source path = some bytes ∧ grammar.parse ⟨path, bytes⟩ = .ok nodes) :
    Sound grammar (t.after operation) where
  parser := parser
  tags := tags
  memory := memory
  notes := notes
  parsed {path nodes} kept := by
    obtain ⟨bytes, held, same⟩ := parsed path nodes kept
    refine ⟨bytes, ?_, same⟩
    rw [remembered_after, kept, ← held]
    rfl
  forgotten {path} missing := by
    rw [remembered_after, missing]
    rfl
  unkept := unkept

/-- From its own store a sound session goes the same way as itself, with any faithful notes. -/
theorem serving (sound : Sound grammar t) {notes : Notes} (faithful : notes.Faithful) :
    t.session.renderer.Serving t.session.renderer t.source t.session.store.cache
      t.session.store.cache { t.session.store with notes } { t.session.store with notes } :=
  ⟨rfl, faithful, faithful, sound.serves, sound.serves⟩

/-- Rendering by path gives what it would with caching off, and the cache goes on serving. -/
theorem renderPath_serving (sound : Sound grammar t) (path : String) (data : Value) :
    let after := (t.session.renderPath path data).2.store
    t.session.renderer.Serving t.session.renderer t.source t.session.store.cache
      t.session.store.cache after after :=
  (Session.evaluate_lockStep (sound.like.renderers.renderPath path) (sound.serving sound.notes)
    data).2

theorem renderBuffer_serves (sound : Sound grammar t) (buffer : Buffer) (data : Value) :
    t.session.renderer.Serves t.source t.session.store.cache
      (t.session.renderBuffer buffer data).2.store.cache := by
  let fresh : Session := { t.session with store := { t.session.store with notes := .empty } }
  have related := sound.serving Notes.faithful_empty
  exact (Session.evaluate_lockStep (a := fresh) (b := fresh) (sound.like.renderBuffer buffer) related
    data).2.left

/-- Every operation keeps a tracked session sound. -/
theorem after (sound : Sound grammar t) (operation : Operation) :
    Sound grammar (t.after operation) := by
  have kept := @source_kept _ _ sound
  cases operation with
  | renderPath path data =>
    have serving := sound.renderPath_serving path data
    apply after_of (.renderPath path data) sound.tags sound.parser sound.memory
      serving.notesLeft serving.left.unkept
    intro path nodes there
    rw [← sound.parser]
    exact serving.left.parsed there
  | renderBuffer buffer data =>
    have serves := sound.renderBuffer_serves buffer data
    apply after_of (.renderBuffer buffer data) sound.tags sound.parser sound.memory
      sound.notes serves.unkept
    intro path nodes there
    rw [← sound.parser]
    exact serves.parsed there
  | parse buffer =>
    exact after_of _ sound.tags sound.parser sound.memory sound.notes sound.unkept
      fun _ _ there => kept there
  | uncache dropped =>
    apply after_of (.uncache dropped) sound.tags sound.parser sound.memory sound.notes
    · intro off
      change t.session.store.cache.filter _ = []
      rw [sound.unkept off]
      rfl
    · intro path nodes there
      change (t.session.store.uncache dropped).cached? path = some nodes at there
      by_cases same : path = dropped
      · subst same
        rw [Store.cached?_uncache_self] at there
        cases there
      · rw [Store.cached?_uncache_ne same] at there
        exact kept there
  | clearCache =>
    exact after_of _ sound.tags sound.parser sound.memory sound.notes (fun _ => rfl) nofun
  | setCaching on =>
    cases on with
    | true =>
      exact after_of _ sound.tags sound.parser sound.memory sound.notes nofun
        fun _ _ there => kept there
    | false =>
      exact after_of _ sound.tags sound.parser sound.memory sound.notes (fun _ => rfl) nofun
  | insert path bytes =>
    have memory : ∃ templates, (t.session.renderer.loader.insert path bytes) =
        .memory templates := by
      obtain ⟨templates, memory⟩ := sound.memory
      rw [memory]
      exact ⟨_, rfl⟩
    exact after_of _ sound.tags sound.parser memory sound.notes sound.unkept
      fun _ _ there => kept there
  | takeNotes notes faithful =>
    exact after_of _ sound.tags sound.parser sound.memory faithful sound.unkept
      fun _ _ there => kept there

/-- What is sound stays so through any number of operations. -/
theorem run (sound : Sound grammar t) (operations : List Operation) :
    Sound grammar (t.run operations) := by
  induction operations generalizing t with
  | nil => exact sound
  | cons operation operations ih => exact ih (sound.after operation)

end Sound

end Tracked

end Stencil
