import Stencil.Value.Basic

/-! # Reading and writing along a path

A segment leads from a map to the entry under its text and from an array to the item at its place.
A write first changes every value on the way into the container its segment needs, padding arrays
with null, unless an index lies more than `maxArrayPadding` past the end of its array: such a
write is refused as a whole.
-/

namespace Stencil.Value

/-- The value one segment further, if it is there. -/
def child? (v : Value) (segment : Segment) : Option Value :=
  match v with
  | map entries => entries.lookup segment.name
  | array items => segment.place?.bind fun place => items[place]?
  | _ => none

/-- The value at the end of some segments, if all of them lead somewhere. -/
def walk? (v : Value) : List Segment → Option Value
  | [] => some v
  | segment :: rest => (v.child? segment).bind fun child => child.walk? rest

def lookup (v : Value) (path : Path) : Option Value := v.walk? path.segments

/-- The value at a path, null when it is not there. -/
def get (v : Value) (path : Path) : Value := (v.lookup path).getD null

/-- How far past the end of an array a write may land. -/
def maxArrayPadding : Nat := 4096

/-- The container a segment is written into: the value itself where the segment fits it, and
otherwise a fresh map for a key and a fresh array for an index. -/
def forced (v : Value) (segment : Segment) : Value :=
  match v, segment with
  | map entries, _ => map entries
  | array items, .index _ => array items
  | array items, .key name => if (Decimal.index? name).isSome then array items else map []
  | _, .key _ => map []
  | _, .index _ => array []

/-- The items with the one at a place changed, after padding with null up to that place. -/
def changeItem (place : Nat) (change : Value → Value) (items : List Value) : List Value :=
  (items ++ List.replicate (place + 1 - items.length) null).modify place change

/-- A container with the child at a segment changed; a missing child starts as null. -/
def changeChild (v : Value) (segment : Segment) (change : Value → Value) : Value :=
  match v with
  | map entries => map (Entries.update segment.name change entries)
  | array items =>
    match segment.place? with
    | some place => array (changeItem place change items)
    | none => array items
  | other => other

/-- The value with `written` at the end of some segments, whatever the padding. -/
def put (v : Value) (segments : List Segment) (written : Value) : Value :=
  match segments with
  | [] => written
  | segment :: rest =>
    (v.forced segment).changeChild segment fun child => child.put rest written

/-- The place a write of the segment indexes: any index outside of a map, and in an array also a
key that reads as one. -/
def indexed? (v : Value) (segment : Segment) : Option Nat :=
  match segment with
  | .index place => if v.isMap then none else some place
  | .key name => if v.isArray then Decimal.index? name else none

/-- The first index of a write that lies out of reach. -/
def refusal? (v : Value) : List Segment → Option OutOfReach
  | [] => none
  | segment :: rest =>
    match v.indexed? segment with
    | none =>
      let child := match v with
        | map entries => entries.lookup segment.name
        | _ => none
      (child.getD null).refusal? rest
    | some place =>
      let items := v.asArray.getD []
      if place > items.length + maxArrayPadding then some ⟨place, items.length⟩
      else (items[place]?.getD null).refusal? rest

/-- The value with `written` at a path, unless the write is refused. -/
def trySet (v : Value) (path : Path) (written : Value) : Except OutOfReach Value :=
  match v.refusal? path.segments with
  | some refused => .error refused
  | none => .ok (v.put path.segments written)

/-- The value with `written` at a path; a refused write changes nothing. -/
def set (v : Value) (path : Path) (written : Value) : Value :=
  match v.trySet path written with
  | .ok changed => changed
  | .error _ => v

end Stencil.Value
