import Stencil.Evaluation

/-! # Tags

A tag is a named handler that a template calls with evaluated parameters and perhaps a body. The
handler sees the body's nodes and may render them, as text or as values, against the current data.
-/

namespace Stencil

/-- The body of a call: its nodes and the two ways to render them. -/
structure Body where
  nodes : List Node
  text : Evaluation String
  values : Evaluation Value

/-- What a handler sees of one call. Parameters are evaluated from left to right and hold nothing
deferred. -/
structure Call where
  name : String
  parameters : List Value
  body : Option Body
  source : Source
  tagNames : List String
  embeds : Bool
  depth : Nat

/-- The handler of a tag. -/
abbrev Handler := Call → Evaluation Value

namespace Call

def error (call : Call) (fault : TagFault) : Error := .tag call.name fault call.source

def reject (call : Call) (fault : TagFault) : Evaluation α := throw (call.error fault)

/-- The parameter at a place, null when there are fewer. -/
def parameter (call : Call) (place : Nat) : Value := call.parameters[place]?.getD .null

def requireCount (call : Call) (expected : Nat) : Evaluation Unit :=
  if call.parameters.length = expected then return ()
  else call.reject (.parameterCount call.parameters.length expected)

def requireNoBody (call : Call) : Evaluation Unit :=
  if call.body.isSome then call.reject .extraneousBody else return ()

def requireBody (call : Call) : Evaluation Body :=
  match call.body with
  | some body => return body
  | none => call.reject .missingBody

def bodyText (call : Call) : Evaluation String := do (← call.requireBody).text

end Call

/-- Handlers by name, the latest registration first; a name occurs once. -/
structure Registry where
  tags : List (String × Handler)

namespace Registry

def empty : Registry := ⟨[]⟩

def find? (registry : Registry) (name : String) : Option Handler := registry.tags.lookup name

def contains (registry : Registry) (name : String) : Bool := (registry.find? name).isSome

def erase (registry : Registry) (name : String) : Registry :=
  ⟨registry.tags.filter fun entry => entry.1 != name⟩

/-- The registry with a handler under a name, in place of any other. -/
def register (registry : Registry) (name : String) (handler : Handler) : Registry :=
  ⟨(name, handler) :: (registry.erase name).tags⟩

def registerAll (registry : Registry) (tags : List (String × Handler)) : Registry :=
  tags.foldl (fun all tag => all.register tag.1 tag.2) registry

/-- The registered names, sorted. -/
def names (registry : Registry) : List String :=
  (Value.sortedByKey (registry.tags.map fun entry => (entry.1, ()))).map (·.1)

def size (registry : Registry) : Nat := registry.tags.length

end Registry

end Stencil
