import Mathlib
import Stencil.Proofs.Cache.Operations

/-! # The cache makes no difference

Whatever a host does with a renderer, rendering by path gives what it gives without a cache over
the bytes that the kept templates were loaded with; and what those bytes are is told by the history.
-/

namespace Stencil

def Operation.inserts : Operation → Bool
  | insert .. => true
  | _ => false

namespace Tracked

variable {grammar : Grammar} {t : Tracked}

theorem run_snoc (operations : List Operation) (last : Operation) :
    t.run (operations ++ [last]) = (t.run operations).after last := by
  simp only [run, List.foldl_append, List.foldl_cons, List.foldl_nil]

/-! ## The reference -/

/-- Inserting several templates changes the loader only, and the first of them win. -/
theorem foldr_insert (entries : List (String × List UInt8)) {session : Session}
    (memory : ∃ templates, session.renderer.loader = .memory templates) :
    ∃ templates,
      entries.foldr (fun entry session => session.insert entry.1 entry.2) session =
        { session with renderer := { session.renderer with loader := .memory templates } } ∧
      ∀ path, templates.lookup path =
        (entries.lookup path).or (session.renderer.loader.bytes? path) := by
  induction entries with
  | nil =>
    obtain ⟨templates, memory⟩ := memory
    refine ⟨templates, ?_, ?_⟩
    · rw [List.foldr_nil, ← memory]
    · intro path
      rw [memory]
      rfl
  | cons entry entries ih =>
    obtain ⟨name, bytes⟩ := entry
    obtain ⟨templates, inserted, held⟩ := ih
    refine ⟨(name, bytes) :: templates.filter fun entry => entry.1 != name, ?_, ?_⟩
    · rw [List.foldr_cons, inserted]
      rfl
    · intro path
      by_cases same : path = name
      · subst same
        rw [List.lookup_cons_self, List.lookup_cons_self]
        rfl
      · rw [lookup_cons_ne same, lookup_cons_ne same, lookup_filter_ne same, held]

namespace Sound

/-- What is behind a path is what is remembered for it, or else what the loader holds. -/
theorem source_eq (sound : Sound grammar t) (path : String) :
    t.source path = (t.remembered.lookup path).or (t.session.renderer.loader.bytes? path) := by
  unfold source
  cases kept : t.session.store.cached? path with
  | none =>
    rw [sound.forgotten kept]
    rfl
  | some nodes =>
    obtain ⟨bytes, held, _⟩ := sound.parsed kept
    rw [held]
    rfl

/-- A sound session renders by path as its reference does. -/
theorem renderPath_reference (sound : Sound grammar t) (path : String) (data : Value) :
    (t.session.renderPath path data).1 = (t.reference.renderPath path data).1 := by
  obtain ⟨templates, inserted, held⟩ := foldr_insert t.remembered sound.memory
  have reference : t.reference =
      Session.setCaching { t.session with
        renderer := { t.session.renderer with loader := .memory templates } } false := by
    rw [Tracked.reference, inserted]
  have like : t.session.renderer.Like t.reference.renderer := by
    rw [reference]
    exact ⟨rfl, ⟨sound.tags, sound.tags⟩, ⟨sound.memory, templates, rfl⟩, fun _ => rfl⟩
  have serves : t.reference.renderer.Serves t.source [] [] := by
    rw [reference]
    refine ⟨nofun, ?_, fun _ => rfl, nofun⟩
    intro path _
    rw [sound.source_eq path]
    exact held path
  have related : t.session.renderer.Serving t.reference.renderer t.source
      t.session.store.cache [] t.session.store t.reference.store := by
    rw [reference] at serves ⊢
    exact ⟨rfl, sound.notes, sound.notes, sound.serves, serves⟩
  exact (Session.evaluate_lockStep (like.renderers.renderPath path) related data).1

end Sound

/-! ## A loader that still holds what was loaded -/

/-- What is remembered is what the loader holds now. -/
def Current (t : Tracked) : Prop :=
  ∀ path bytes, t.remembered.lookup path = some bytes →
    t.session.renderer.loader.bytes? path = some bytes

/-- While all that is remembered is current, the bytes behind a path are those the loader holds. -/
theorem Current.source_eq (current : t.Current) (sound : Sound grammar t) (path : String) :
    t.source path = t.session.renderer.loader.bytes? path := by
  rw [sound.source_eq path]
  cases held : t.remembered.lookup path with
  | none => rfl
  | some bytes =>
    rw [current path bytes held]
    rfl

/-- Only an insertion changes what the loader holds. -/
theorem loader_apply {operation : Operation} (inserts : operation.inserts = false)
    (session : Session) : (operation.apply session).renderer.loader = session.renderer.loader := by
  cases operation with
  | insert => cases inserts
  | _ => rfl

/-- What is remembered stays current but for an insertion. -/
theorem Current.after (current : t.Current) (sound : Sound grammar t) {operation : Operation}
    (inserts : operation.inserts = false) : (t.after operation).Current := by
  intro path bytes held
  rw [remembered_after] at held
  change (operation.apply t.session).renderer.loader.bytes? path = some bytes
  rw [loader_apply inserts, ← current.source_eq sound]
  split at held
  · exact held
  · cases held

/-- While nothing is inserted the loader goes on holding what was loaded. -/
theorem Current.run (current : t.Current) (sound : Sound grammar t) {operations : List Operation}
    (inserts : ∀ operation ∈ operations, operation.inserts = false) :
    (t.run operations).Current := by
  induction operations generalizing t with
  | nil => exact current
  | cons operation operations ih =>
    obtain ⟨first, rest⟩ := List.forall_mem_cons.mp inserts
    exact ih (current.after sound first) (sound.after operation) rest

/-- With a current loader a template by its path renders as its bytes do. -/
theorem Sound.renderPath_renderBuffer (sound : Sound grammar t) (current : t.Current)
    (path : String) (data : Value) {bytes : List UInt8}
    (held : t.session.renderer.loader.bytes? (t.session.resolvePath path) = some bytes) :
    (t.session.renderPath path data).1 =
      (t.session.renderBuffer ⟨t.session.resolvePath path, bytes⟩ data).1 := by
  have supplied : t.source (t.session.renderer.config.resolve path) = some bytes := by
    rw [current.source_eq sound]
    exact held
  let fresh : Session := { t.session with store := { t.session.store with notes := .empty } }
  have related : t.session.renderer.Serving fresh.renderer t.source t.session.store.cache
      t.session.store.cache t.session.store fresh.store :=
    ⟨rfl, sound.notes, Notes.faithful_empty, sound.serves, sound.serves⟩
  exact (Session.evaluate_lockStep (b := fresh)
    (sound.like.renderPath_renderBuffer path supplied) related data).1

/-! ## What an operation does to one entry -/

namespace Sound

/-- A template that an operation has put into the cache was loaded from what the loader held. -/
theorem newly_kept (sound : Sound grammar t) {operation : Operation} {path : String}
    {nodes : List Node} (missing : t.session.store.cached? path = none)
    (kept : (t.after operation).session.store.cached? path = some nodes) :
    ∃ bytes, t.session.renderer.loader.bytes? path = some bytes ∧
      (t.after operation).remembered.lookup path = some bytes ∧
      grammar.parse ⟨path, bytes⟩ = .ok nodes := by
  obtain ⟨bytes, held, parsed⟩ := (sound.after operation).parsed kept
  refine ⟨bytes, ?_, held, parsed⟩
  rw [remembered_after, kept, source, missing] at held
  exact held

/-- A template that was kept and still is has not been loaded again. -/
theorem still_kept (sound : Sound grammar t) {operation : Operation} {path : String}
    {nodes nodes' : List Node} (kept : t.session.store.cached? path = some nodes)
    (still : (t.after operation).session.store.cached? path = some nodes') :
    nodes' = nodes ∧ (t.after operation).remembered.lookup path = t.remembered.lookup path := by
  constructor
  · have unchanged : (operation.apply t.session).store.cached? path = some nodes ∨
        (operation.apply t.session).store.cached? path = none := by
      cases operation with
      | renderPath other data => exact .inl ((sound.renderPath_serving other data).left.stays kept)
      | renderBuffer buffer data => exact .inl ((sound.renderBuffer_serves buffer data).stays kept)
      | parse | insert | takeNotes => exact .inl kept
      | clearCache => exact .inr rfl
      | setCaching on =>
        cases on with
        | true => exact .inl kept
        | false => exact .inr rfl
      | uncache dropped =>
        by_cases same : path = dropped
        · subst same
          exact .inr (Store.cached?_uncache_self _ path)
        · exact .inl ((Store.cached?_uncache_ne same _).trans kept)
    change (operation.apply t.session).store.cached? path = some nodes' at still
    rcases unchanged with same | gone
    · rw [same] at still
      exact (Option.some.inj still).symm
    · cases gone.symm.trans still
  · rw [remembered_after, still, source, kept]
    rfl

/-- A kept template was put into the cache by one operation and has stayed there since; what is
remembered for it is what the loader held before that operation. -/
theorem last_loaded (sound : Sound grammar t) (empty : t.session.store.cache = [])
    (operations : List Operation) {path : String} {nodes : List Node}
    (kept : (t.run operations).session.store.cached? path = some nodes) :
    ∃ earlier operation later bytes, operations = earlier ++ operation :: later ∧
      (t.run earlier).session.store.cached? path = none ∧
      (t.run earlier).session.renderer.loader.bytes? path = some bytes ∧
      (∀ n, (t.run (earlier ++ operation :: later.take n)).session.store.cached? path =
        some nodes) ∧
      (t.run operations).remembered.lookup path = some bytes ∧
      grammar.parse ⟨path, bytes⟩ = .ok nodes := by
  induction operations using List.reverseRecOn generalizing nodes with
  | nil =>
    change t.session.store.cache.lookup path = some nodes at kept
    rw [empty] at kept
    cases kept
  | append_singleton operations last ih =>
    have before := sound.run operations
    rw [run_snoc] at kept ⊢
    cases there : (t.run operations).session.store.cached? path with
    | none =>
      obtain ⟨bytes, held, remembered, parsed⟩ := before.newly_kept there kept
      refine ⟨operations, last, [], bytes, rfl, there, held, ?_, remembered, parsed⟩
      intro n
      rw [List.take_nil, run_snoc]
      exact kept
    | some nodes' =>
      obtain ⟨rfl, remembered⟩ := before.still_kept there kept
      obtain ⟨earlier, operation, later, bytes, rfl, missing, held, stayed, same, parsed⟩ :=
        ih there
      refine ⟨earlier, operation, later ++ [last], bytes, by simp, missing, held, ?_,
        remembered.trans same, parsed⟩
      intro n
      by_cases inside : n ≤ later.length
      · rw [List.take_append_of_le_length inside]
        exact stayed n
      · rw [List.take_of_length_le (by simp; omega), ← List.cons_append, ← List.append_assoc,
          run_snoc]
        exact kept

/-- An operation keeps nothing under a path at which the loader holds nothing that parses. -/
theorem missing_after (sound : Sound grammar t) (operation : Operation) {path : String}
    (missing : t.session.store.cached? path = none)
    (fails : ∀ bytes, t.session.renderer.loader.bytes? path = some bytes →
      ∀ nodes, grammar.parse ⟨path, bytes⟩ ≠ .ok nodes) :
    (t.after operation).session.store.cached? path = none := by
  cases kept : (t.after operation).session.store.cached? path with
  | none => rfl
  | some nodes =>
    obtain ⟨bytes, held, _, parsed⟩ := sound.newly_kept missing kept
    exact absurd parsed (fails bytes held nodes)

end Sound

/-! ## Transparency -/

/-- A renderer, tracked through operations from its start, has a cache that cannot be told from
none. -/
structure Transparent (renderer : Renderer) (operations : List Operation) (t : Tracked) : Prop where
  /-- A kept template is the parse, under its path, of what the loader held before the operation
  that loaded it last; since then it has stayed as it is. -/
  parsed : ∀ path nodes, t.session.store.cached? path = some nodes →
    ∃ earlier operation later bytes, operations = earlier ++ operation :: later ∧
      ((start renderer).run earlier).session.store.cached? path = none ∧
      ((start renderer).run earlier).session.renderer.loader.bytes? path = some bytes ∧
      (∀ n, ((start renderer).run (earlier ++ operation :: later.take n)).session.store.cached?
        path = some nodes) ∧
      t.remembered.lookup path = some bytes ∧ renderer.grammar.parse ⟨path, bytes⟩ = .ok nodes
  /-- Rendering by path gives what it gives without a cache, over a loader that holds for each kept
  template the bytes it was loaded with, and for the other paths what it holds now. -/
  rendered : ∀ path data,
    (t.session.renderPath path data).1 = (t.reference.renderPath path data).1
  /-- While the loader holds what was loaded, that is what rendering its bytes gives. -/
  direct : t.Current → ∀ path data bytes,
    t.session.renderer.loader.bytes? (t.session.resolvePath path) = some bytes →
    (t.session.renderPath path data).1 =
      (t.session.renderBuffer ⟨t.session.resolvePath path, bytes⟩ data).1
  /-- The loader holds what was loaded as long as nothing is inserted. -/
  current : (∀ operation ∈ operations, operation.inserts = false) → t.Current
  /-- A load that fails leaves nothing under its path, whatever was loaded before it. -/
  failed : ∀ store path why,
    (t.session.renderer.config.shouldCache = false → store.cache = []) →
    ((t.session.renderer.load path).run store).1 = .error why →
    ((t.session.renderer.load path).run store).2.cached? path = none
  /-- Nor does an operation leave anything under a path that cannot be loaded. -/
  missing : ∀ operation path, t.session.store.cached? path = none →
    (∀ bytes, t.session.renderer.loader.bytes? path = some bytes →
      ∀ nodes, renderer.grammar.parse ⟨path, bytes⟩ ≠ .ok nodes) →
    (t.after operation).session.store.cached? path = none
  /-- While caching is off nothing is kept. -/
  unkept : t.session.renderer.config.shouldCache = false → t.session.store.cache = []

/-- The cache of a renderer from memory makes no difference, whatever a host does with it. -/
theorem transparent (grammar : Grammar) (templates : List (String × List UInt8)) (config : Config)
    (operations : List Operation) :
    Transparent ⟨grammar, Tags.builtin, .memory templates, config⟩ operations
      ((start ⟨grammar, Tags.builtin, .memory templates, config⟩).run operations) := by
  have begun := sound_start grammar templates config
  have sound := begun.run operations
  constructor
  case parsed => exact fun _ _ kept => begun.last_loaded rfl operations kept
  case rendered => exact sound.renderPath_reference
  case direct =>
    intro current path data bytes held
    exact sound.renderPath_renderBuffer current path data held
  case current =>
    intro inserts
    have fresh : (start ⟨grammar, Tags.builtin, .memory templates, config⟩).Current := nofun
    exact fresh.run begun inserts
  case failed =>
    intro store path why off failed
    obtain ⟨_, memory⟩ := sound.memory
    exact Renderer.load_failed memory off failed
  case missing =>
    intro operation path absent fails
    exact sound.missing_after operation absent fails
  case unkept => exact sound.unkept

/-- A kept template is rendered as it was loaded, also where another one embeds it. -/
example :
    let old : Renderer := ⟨.kit, Tags.builtin,
      .memory [("a", "#embed(\"b\")".toUTF8.toList), ("b", "x".toUTF8.toList)], Config.default⟩
    let t := (start old).run [.renderPath "a" .null, .insert "b" "y".toUTF8.toList]
    (t.session.renderPath "a" .null).1.toOption = some "x" := by
  cbv

end Tracked

end Stencil
