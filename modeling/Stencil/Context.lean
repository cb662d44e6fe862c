import Stencil.Evaluation

/-! # Contexts

A context is a handle on data and on the notes of its render. Clones of a handle see the same
data; a derived context has data of its own. All contexts of one family share their notes.
-/

namespace Stencil

/-- A family of contexts: the data that exists, which of it each handle sees, and the notes. -/
structure Contexts where
  cells : List Value
  handles : List Nat
  notes : Notes

namespace Contexts

def start (data : Value) : Contexts := ⟨[data], [0], .empty⟩

def cell (c : Contexts) (handle : Nat) : Nat := c.handles[handle]?.getD 0

def data (c : Contexts) (handle : Nat) : Value := c.cells[c.cell handle]?.getD .null

/-- The family with other data under a handle and its clones. -/
def setData (c : Contexts) (handle : Nat) (data : Value) : Contexts :=
  { c with cells := c.cells.set (c.cell handle) data }

/-- A new handle on the same data. -/
def clone (c : Contexts) (handle : Nat) : Nat × Contexts :=
  (c.handles.length, { c with handles := c.handles ++ [c.cell handle] })

/-- A new handle on a copy of the data with bindings. -/
def derive (c : Contexts) (handle : Nat) (bindings : List (String × Value)) : Nat × Contexts :=
  (c.handles.length,
    { c with cells := c.cells ++ [(c.data handle).derive bindings],
             handles := c.handles ++ [c.cells.length] })

/-- A new handle on a copy of the data. -/
def fork (c : Contexts) (handle : Nat) : Nat × Contexts := c.derive handle []

/-- Writes at a path of the data, unless the write is refused. -/
def trySet (c : Contexts) (handle : Nat) (path : Path) (value : Value) :
    Except OutOfReach Unit × Contexts :=
  match (c.data handle).trySet path value with
  | .ok changed => (.ok (), c.setData handle changed)
  | .error refused => (.error refused, c)

def debugNotes (notes : Notes) : String :=
  let keys := Value.sortedByKey (notes.entries.map fun entry => (entry.1, ()))
  "UserInfo \x7b keys: " ++ Text.bracketed "[" "]" (keys.map fun key => Text.quoted key.1) ++
    " \x7d"

def debug (c : Contexts) (handle : Nat) : String :=
  "TemplateContext \x7b data: " ++ (c.data handle).debug ++ ", user_info: " ++
    debugNotes c.notes ++ " \x7d"

end Contexts

end Stencil
