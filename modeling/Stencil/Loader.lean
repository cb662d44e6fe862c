import Stencil.Evaluation

/-! # Where templates come from

Templates are supplied from memory, under their full path, or from files. A tree of files is given
by the paths of its files relative to the working directory; reading a file suspends the
evaluation once.
-/

namespace Stencil

/-- A supply of template bytes. -/
inductive Loader
  | memory (templates : List (String × List UInt8))
  | files (tree : List (String × List UInt8))

namespace Loader

/-- The components of a relative path, without empty ones and single periods. -/
def components (path : String) : List String :=
  ((Path.pieces '/' path.toList).map String.ofList).filter fun part => part != "" && part != "."

/-- Walks from a directory, given by its components in reverse, up and down a tree of files; each
directory on the way must be there. -/
def walk? (tree : List (List String × List UInt8)) :
    List String → List String → Except LoadFault (List String)
  | here, [] => .ok here.reverse
  | here, part :: rest =>
    let directory := tree.any fun file =>
      here.reverse.isPrefixOf file.1 && here.length < file.1.length
    if tree.any fun file => file.1 == here.reverse then .error .notADirectory
    else if !here.isEmpty && !directory then .error .noSuchFile
    else if part = ".." then walk? tree here.tail rest
    else walk? tree (part :: here) rest

def file (tree : List (String × List UInt8)) (path : String) : Except LoadFault (List UInt8) := do
  let tree := tree.map fun file => (components file.1, file.2)
  if path = "" ∨ path.toList.head? = some '/' then .error .noSuchFile
  else
    let place ← walk? tree [] (components path)
    match tree.lookup place with
    | some bytes => if path.toList.getLast? = some '/' then .error .notADirectory else .ok bytes
    | none =>
      if tree.any fun file => place.isPrefixOf file.1 then .error .isADirectory
      else .error .noSuchFile

def load (loader : Loader) (path : String) : Attempt (List UInt8) :=
  match loader with
  | memory templates =>
    .done ((templates.lookup path).elim (.error (.load path .unregistered)) .ok)
  | files tree =>
    .pause (.done ((file tree path).mapError fun fault => .load path fault))

def insert (loader : Loader) (path : String) (bytes : List UInt8) : Loader :=
  match loader with
  | memory templates => memory ((path, bytes) :: templates.filter fun entry => entry.1 != path)
  | files tree => files ((path, bytes) :: tree.filter fun entry => entry.1 != path)

end Loader

end Stencil
