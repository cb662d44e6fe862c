import Stencil.Notes
import Stencil.Syntax

/-! # What concurrent evaluations share

One store serves a whole session: the templates already parsed, how often the grammar was asked to
parse, the notes of the current render, a log, and how far each deferred value has come. Handles
for values that tags defer are drawn from it.
-/

namespace Stencil

/-- How far a pending value has come. -/
structure Progress where
  served : Nat
  finished : Bool
  deriving DecidableEq, Repr

/-- The state that concurrent evaluations share. -/
structure Store where
  cache : List (String × List Node)
  parses : Nat
  notes : Notes
  log : List String
  progress : List (Handle × Progress)
  made : Nat

namespace Store

def empty : Store := ⟨[], 0, .empty, [], [], 0⟩

def progressOf (s : Store) (handle : Handle) : Progress :=
  (s.progress.lookup handle).getD ⟨0, false⟩

/-- The store with the progress of a pending value. -/
def setProgress (s : Store) (handle : Handle) (progress : Progress) : Store :=
  { s with progress := (handle, progress) :: s.progress.filter fun entry => entry.1 != handle }

/-- A pending value has been suspended once more. -/
def serve (s : Store) (handle : Handle) : Store :=
  let progress := s.progressOf handle
  s.setProgress handle { progress with served := progress.served + 1 }

def write (s : Store) (line : String) : Store := { s with log := s.log ++ [line] }

/-- A pending value ends; its note is written the first time. -/
def finish (s : Store) (handle : Handle) (note : Option String) : Store :=
  let progress := s.progressOf handle
  if progress.finished then s
  else
    let ended := s.setProgress handle { progress with finished := true }
    match note with
    | some line => ended.write line
    | none => ended

/-- A handle that no value has yet. -/
def draw (s : Store) : Handle × Store := (.made s.made, { s with made := s.made + 1 })

def cached? (s : Store) (path : String) : Option (List Node) := s.cache.lookup path

/-- The store without the parsed template under a path. -/
def uncache (s : Store) (path : String) : Store :=
  { s with cache := s.cache.filter fun entry => entry.1 != path }

/-- The store with a parsed template under a path. -/
def keep (s : Store) (path : String) (nodes : List Node) : Store :=
  { s with cache := (path, nodes) :: (s.uncache path).cache }

def clearCache (s : Store) : Store := { s with cache := [] }

variable {path other : String}

@[simp] theorem cached?_uncache_self (s : Store) (path : String) :
    (s.uncache path).cached? path = none := lookup_filter_self path s.cache

theorem cached?_uncache_ne (different : other ≠ path) (s : Store) :
    (s.uncache path).cached? other = s.cached? other := lookup_filter_ne different s.cache

theorem cached?_keep (s : Store) (path : String) (nodes : List Node) (other : String) :
    (s.keep path nodes).cached? other = if other = path then some nodes else s.cached? other := by
  split
  · rename_i same
    subst same
    exact List.lookup_cons_self
  · rename_i different
    exact (lookup_cons_ne different nodes _).trans (cached?_uncache_ne different s)

end Store

end Stencil
