import Stencil.Config
import Stencil.Grammar.Kit
import Stencil.Grammar.Mustache
import Stencil.Loader
import Stencil.Render
import Stencil.Tags.Builtin

/-! # Renderers

A renderer puts a grammar, tags, a loader and a configuration together. Of the grammars the plain
one has no syntax: the whole text is one raw node. Templates that are loaded by path may be kept
once they are parsed, and may embed each other up to a fixed depth.
-/

namespace Stencil

/-- The grammars of templates. -/
inductive Grammar
  | kit
  | mustache
  | plain
  deriving DecidableEq, Repr

/-- The nodes of a plain text; an empty text has none. -/
def Grammar.Plain.parse (buffer : Buffer) : List Node :=
  if buffer.text.isEmpty then []
  else
    let start := Cursor.start buffer
    [.raw ((start.advance start.remaining).source start.position) buffer.text]

def Grammar.parse (grammar : Grammar) (buffer : Buffer) : Except Error (List Node) :=
  match grammar with
  | kit => Grammar.Kit.parse buffer
  | mustache => Grammar.Mustache.parse buffer
  | plain => .ok (Grammar.Plain.parse buffer)

/-- Everything that rendering by path depends on. -/
structure Renderer where
  grammar : Grammar
  tags : Registry
  loader : Loader
  config : Config

namespace Renderer

def parse (renderer : Renderer) (buffer : Buffer) : Attempt (List Node) :=
  Routine.step fun s =>
    (renderer.grammar.parse buffer, { s with parses := s.parses + 1 })

def keep (path : String) (nodes : List Node) : Attempt (List Node) :=
  Routine.step fun s => (.ok nodes, s.keep path nodes)

/-- The nodes of the template at a full path, from those that are kept if it is among them. -/
def load (renderer : Renderer) (path : String) : Attempt (List Node) :=
  let fresh := (renderer.loader.load path).andThen fun text => renderer.parse ⟨path, text⟩
  if renderer.config.shouldCache then
    .read fun s =>
      match s.cached? path with
      | some nodes => .done (.ok nodes)
      | none => fresh.andThen (keep path)
  else fresh

/-- How templates are embedded when `levels` more may lie inside of each other. -/
def embedding (renderer : Renderer) : Nat → Embedding
  | 0 => .exhausted
  | levels + 1 => .available fun path => do
    let nodes ← Evaluation.ofAttempt (renderer.load (renderer.config.resolve path))
    Scope.serialize ⟨renderer.tags, embedding renderer levels, maxEmbedDepth - levels⟩ nodes

/-- The scope of a template that no other embeds. -/
def scope (renderer : Renderer) : Scope :=
  ⟨renderer.tags, renderer.embedding maxEmbedDepth, 0⟩

def renderPath (renderer : Renderer) (path : String) : Evaluation String := do
  let nodes ← Evaluation.ofAttempt (renderer.load (renderer.config.resolve path))
  renderer.scope.serialize nodes

def renderBuffer (renderer : Renderer) (buffer : Buffer) : Evaluation String := do
  renderer.scope.serialize (← Evaluation.ofAttempt (renderer.parse buffer))

/-- How a renderer with some templates kept is shown. -/
def debug (renderer : Renderer) (kept : Nat) : String :=
  "TemplateRenderer \x7b tags: " ++
    Text.bracketed "\x7b" "\x7d" (renderer.tags.names.map Text.quoted) ++
    ", config: " ++ renderer.config.debug ++ ", cached: " ++ toString kept ++ ", .. \x7d"

/-- The configuration that goes with a grammar when no other is given. -/
def defaultConfig : Grammar → Config
  | .mustache => { Config.default with fileEnding := ".mustache" }
  | .kit | .plain => Config.default

/-- A renderer of kit templates from files that end in `.kit`. -/
def kit (loader : Loader) : Renderer :=
  ⟨.kit, Tags.builtin, loader, { Config.default with fileEnding := ".kit" }⟩

def plaintext (loader : Loader) : Renderer := ⟨.plain, Tags.builtin, loader, Config.default⟩

/-- A renderer of mustache templates from files that end in `.mustache`. -/
def mustache (loader : Loader) : Renderer :=
  ⟨.mustache, Tags.builtin, loader, defaultConfig .mustache⟩

end Renderer

end Stencil
