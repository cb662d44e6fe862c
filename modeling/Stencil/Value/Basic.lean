import Stencil.Error

/-! # Values

What templates compute with: data of the host, every intermediate result, and the results of tags.
Besides the plain shapes there are two deferred ones. A pending value ends by itself after some
suspensions, with an outcome fixed when it is made; a lazy value is computed when it is resolved.
Both are known by a handle, and copies with one handle are one and the same value.

A map is the list of its entries in the order they were first written; a key occurs once.
-/

namespace Stencil

/-- The identity of a deferred value: given by the host, or made by a tag during a render. -/
inductive Handle
  | host (n : Nat)
  | made (n : Nat)
  deriving DecidableEq, Repr

/-- A value of a template. A pending value suspends `delay` times and then writes its note to the
log, if it has one. -/
inductive Value
  | null
  | bool (b : Bool)
  | int (i : Int64)
  | float (x : Float)
  | string (s : String)
  | bytes (data : List UInt8)
  | array (items : List Value)
  | map (entries : List (String × Value))
  | pending (handle : Handle) (delay : Nat) (note : Option String) (outcome : Except Error Value)
  /-- A callback, which is assumed to give the same value at every evaluation. Nothing is kept: it
  is asked again each time the value is resolved, and has no other effect. -/
  | lazy (handle : Handle) (inner : Value)

instance : Inhabited Value := ⟨.null⟩

namespace Value

/-- The name of the shape of a value. -/
def typeName : Value → String
  | null => "null"
  | bool _ => "bool"
  | int _ => "int"
  | float _ => "float"
  | string _ => "string"
  | bytes _ => "bytes"
  | array _ => "array"
  | map _ => "map"
  | pending .. => "pending"
  | lazy .. => "lazy"

def isNull : Value → Bool
  | null => true
  | _ => false

def isMap : Value → Bool
  | map _ => true
  | _ => false

def isArray : Value → Bool
  | array _ => true
  | _ => false

def asArray : Value → Option (List Value)
  | array items => some items
  | _ => none

def asMap : Value → Option (List (String × Value))
  | map entries => some entries
  | _ => none

mutual

/-- Something inside the value still has to be awaited or computed. -/
def needsResolution : Value → Bool
  | pending .. | lazy .. => true
  | array items => anyItem items
  | map entries => anyEntry entries
  | _ => false

def anyItem : List Value → Bool
  | [] => false
  | item :: rest => item.needsResolution || anyItem rest

def anyEntry : List (String × Value) → Bool
  | [] => false
  | (_, item) :: rest => item.needsResolution || anyEntry rest

end

end Value

namespace Entries

/-- The entries with the value under a key changed in place, or made from null and added at the
end when there is none. -/
def update (key : String) (change : Value → Value) :
    List (String × Value) → List (String × Value)
  | [] => [(key, change .null)]
  | (k, v) :: rest => if k = key then (k, change v) :: rest else (k, v) :: update key change rest

/-- The entries with a value written under a key. -/
def insert (entries : List (String × Value)) (key : String) (value : Value) :
    List (String × Value) :=
  update key (fun _ => value) entries

/-- The entries with several values written, in order. -/
def insertAll (entries bindings : List (String × Value)) : List (String × Value) :=
  bindings.foldl (fun all binding => insert all binding.1 binding.2) entries

/-- The first entry under the key of an update is the change of what was there. -/
theorem lookup_update_self (key : String) (change : Value → Value)
    (entries : List (String × Value)) :
    (update key change entries).lookup key = some (change ((entries.lookup key).getD .null)) := by
  induction entries with
  | nil => simp [update]
  | cons entry rest ih =>
    obtain ⟨k, v⟩ := entry
    by_cases same : k = key
    · subst same; simp [update]
    · have other : (key == k) = false := by simpa using fun h => same h.symm
      simp [update, same, List.lookup_cons, other, ih]

/-- An update leaves every other key as it was. -/
theorem lookup_update_ne {key other : String} (change : Value → Value)
    (entries : List (String × Value)) (ne : other ≠ key) :
    (update key change entries).lookup other = entries.lookup other := by
  have differs : (other == key) = false := by simpa using ne
  induction entries with
  | nil => simp [update, List.lookup_cons, differs]
  | cons entry rest ih =>
    obtain ⟨k, v⟩ := entry
    by_cases same : k = key
    · subst same; simp [update, List.lookup_cons, differs]
    · simp [update, same, List.lookup_cons, ih]

end Entries

end Stencil
