import Stencil.Calendar.Pattern
import Stencil.Lookup

/-! # Notes of a render

Storage that every context of one render shares. Tags keep here what is costly to compute again.
An entry has a type, and reading it at another type finds nothing.
-/

namespace Stencil

inductive Note
  | text (s : String)
  | number (i : Int64)
  | patterns (memo : List (String × Calendar.Pattern))
  deriving DecidableEq, Repr

namespace Note

def text? : Note → Option String
  | text s => some s
  | _ => none

def number? : Note → Option Int64
  | number i => some i
  | _ => none

/-- The date patterns of an entry of that type. -/
def patterns? : Note → Option (List (String × Calendar.Pattern))
  | patterns memo => some memo
  | _ => none

end Note

/-- Entries under keys; a key occurs once. -/
structure Notes where
  entries : List (String × Note)
  deriving DecidableEq, Repr

namespace Notes

def empty : Notes := ⟨[]⟩

def find? (notes : Notes) (key : String) : Option Note := notes.entries.lookup key

/-- The notes with an entry under a key, in place of any other. -/
def insert (notes : Notes) (key : String) (note : Note) : Notes :=
  ⟨(key, note) :: notes.entries.filter fun entry => entry.1 != key⟩

/-- The entry under a key at a type, made first when there is none of that type; with the notes
after and whether it was made. -/
def findOrInsert (notes : Notes) (key : String) (type? : Note → Option α) (init : α)
    (note : α → Note) : α × Notes × Bool :=
  match (notes.find? key).bind type? with
  | some found => (found, notes, false)
  | none => (init, notes.insert key (note init), true)

def size (notes : Notes) : Nat := notes.entries.length

def contains (notes : Notes) (key : String) : Bool := (notes.find? key).isSome

@[simp] theorem find?_insert_self (notes : Notes) (key : String) (note : Note) :
    (notes.insert key note).find? key = some note := by
  simp [find?, insert]

theorem find?_insert_ne (notes : Notes) {key other : String} (different : other ≠ key)
    (note : Note) : (notes.insert key note).find? other = notes.find? other := by
  rw [find?, find?, insert, lookup_cons_ne different, lookup_filter_ne different]

end Notes

end Stencil
