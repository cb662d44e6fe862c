import Stencil.Encode
import Stencil.Renderer

/-! # Sessions

A session is a renderer together with the store of all that it has rendered. Its operations are
pure: each answers with the session after it.
-/

namespace Stencil

/-- A renderer in use. -/
structure Session where
  renderer : Renderer
  store : Store

namespace Session

def start (renderer : Renderer) : Session := ⟨renderer, .empty⟩

def attempt (session : Session) (attempt : Attempt α) : Except Error α × Session :=
  let (result, store) := attempt.run session.store
  (result, { session with store })

/-- Runs an evaluation on some data, with the notes of the session. -/
def evaluate (session : Session) (evaluation : Evaluation α) (data : Value) :
    Except Error α × Session :=
  session.attempt (evaluation.attemptOn data)

/-- Does something with fresh notes, and puts those of the session back afterwards. -/
def withFreshNotes (session : Session) (f : Session → α × Session) : α × Session :=
  let (result, after) := f { session with store := { session.store with notes := .empty } }
  (result, { after with store := { after.store with notes := session.store.notes } })

/-- The text of the template at a path, with the notes of the session. -/
def renderPath (session : Session) (path : String) (data : Value) :
    Except Error String × Session :=
  session.evaluate (session.renderer.renderPath path) data

/-- The text of a template, with notes of its own. -/
def renderBuffer (session : Session) (buffer : Buffer) (data : Value) :
    Except Error String × Session :=
  session.withFreshNotes fun s => s.evaluate (s.renderer.renderBuffer buffer) data

/-- The text of the template at a path on encoded host data, with notes of its own. -/
def renderHost (session : Session) (path : String) (data : HostData) :
    Except Error String × Session :=
  match data.encode with
  | .error fault => (.error (.encode fault), session)
  | .ok value => session.withFreshNotes fun s => s.renderPath path value

def parse (session : Session) (buffer : Buffer) : Except Error (List Node) × Session :=
  session.attempt (session.renderer.parse buffer)

def resolvePath (session : Session) (path : String) : String :=
  session.renderer.config.resolve path

/-- Sets whether parsed templates are kept; turning it off also drops those that are kept. -/
def setCaching (session : Session) (on : Bool) : Session :=
  { renderer :=
      { session.renderer with config := { session.renderer.config with shouldCache := on } }
    store := if on then session.store else session.store.clearCache }

def insert (session : Session) (path : String) (bytes : List UInt8) : Session :=
  { session with
    renderer := { session.renderer with loader := session.renderer.loader.insert path bytes } }

def uncache (session : Session) (path : String) : Bool × Session :=
  ((session.store.cached? path).isSome, { session with store := session.store.uncache path })

def keep (session : Session) (path : String) (nodes : List Node) : Session :=
  { session with store := session.store.keep path nodes }

def clearCache (session : Session) : Session :=
  { session with store := session.store.clearCache }

def debug (session : Session) : String := session.renderer.debug session.store.cache.length

end Session

end Stencil
