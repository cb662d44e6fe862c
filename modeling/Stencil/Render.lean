import Stencil.Operators
import Stencil.Tag

/-! # Rendering

Nodes are evaluated one after the other, so that a write is seen by what comes later; what they
leave deferred is then resolved together. The bodies of conditionals and loops run on data of
their own. How other templates are embedded is given from outside, as is how deep this one lies.
-/

namespace Stencil

/-- What an `#embed` does: it needs a renderer, and it is refused when too many templates embed
each other already. -/
inductive Embedding
  | unavailable
  | exhausted
  | available (render : String → Evaluation String)

/-- What the evaluation of a template depends on besides its data. -/
structure Scope where
  tags : Registry
  embedding : Embedding
  depth : Nat

namespace Scope

def embeds (scope : Scope) : Bool :=
  match scope.embedding with
  | .unavailable => false
  | _ => true

def debug (names : List String) (embeds : Bool) (depth : Nat) : String :=
  "TemplateSerializer \x7b tags: " ++
    Text.bracketed "\x7b" "\x7d" (names.map Text.quoted) ++
    ", embeds: " ++ toString embeds ++ ", depth: " ++ toString depth ++ " \x7d"

end Scope

mutual

/-- The text of a value in which nothing is deferred. -/
def Value.flatten : Value → Except SerializeFault String
  | .null => .ok ""
  | .bytes data =>
    match Utf8.decode? data with
    | some text => .ok text
    | none => .error .bytes
  | .array items => flattenItems items
  | .map _ => .error .map
  | .pending .. | .lazy .. => .error .unresolved
  | scalar => .ok (scalar.asString.getD "")

def Value.flattenItems : List Value → Except SerializeFault String
  | [] => .ok ""
  | item :: rest => do return (← item.flatten) ++ (← flattenItems rest)

end

/-- The texts of the resolved values of nodes; a fault points at its node. -/
def flattenNodes : List Node → List Value → Except Error String
  | node :: nodes, value :: values => do
    let text ← (value.flatten).mapError fun fault => .serialize fault node.source
    return text ++ (← flattenNodes nodes values)
  | _, _ => .ok ""

/-- The text of nodes from the values they evaluate to. -/
def finished (nodes : List Node) (values : Evaluation (List Value)) : Evaluation String := do
  let resolved ← Evaluation.ofAttempt (Routine.joinAll (Value.resolveItems (← values)))
  Evaluation.ofAttempt (.of (flattenNodes nodes resolved))

/-- The value of an evaluation with nothing deferred in it. -/
def resolved (value : Evaluation Value) : Evaluation Value := do
  Evaluation.ofAttempt (← value).resolve

/-- The bindings of the item at a place of a loop over `count` items. -/
def loopBindings (key : String) (count place : Nat) (item : Value) : List (String × Value) :=
  [(key, item), ("index", .int (Int64.ofNat place)), ("isFirst", .bool (place == 0)),
   ("isLast", .bool (place + 1 == count))]

/-- Renders the body of a loop for all items together, each on data of its own. -/
def forItems (key : String) (items : List Value) (body : Evaluation (List Value)) :
    Evaluation Value := do
  let data ← Evaluation.data
  let attempts := items.mapIdx fun place item =>
    body.attemptOn (data.derive (loopBindings key items.length place item))
  let values ← Evaluation.ofAttempt (Routine.joinAll attempts)
  return .array (values.map .array)

/-- Renders a loop, given its key, its data and its body. -/
def iterated (source : Source) (key data : Evaluation Value) (body : Evaluation (List Value)) :
    Evaluation Value := do
  match (← resolved key).asString with
  | none => throw (.serialize .loopKey source)
  | some name =>
    match ← resolved data with
    | .null => return .null
    | .array items => forItems name items body
    | other => throw (.serialize (.loopData other.typeName) source)

/-- Embeds the template at the path that a value names. -/
def Scope.embed (scope : Scope) (source : Source) (path : Evaluation Value) :
    Evaluation Value := do
  let value ← resolved path
  match value.asString with
  | none => throw (.serialize (.embedPath value.typeName) source)
  | some text =>
    match scope.embedding with
    | .unavailable => throw (.serialize .noRenderer source)
    | .exhausted => throw (.serialize .embedDepth source)
    | .available render => return .string (← render text)

/-- Calls the tag of a node, given its parameters and its body. -/
def Scope.call (scope : Scope) (source : Source) (name : String)
    (parameters : Evaluation (List Value)) (body : Option Body) : Evaluation Value :=
  match scope.tags.find? name with
  | none => throw (.missingTag name source)
  | some handler => do
    handler { name, parameters := ← parameters, body, source, tagNames := scope.tags.names,
              embeds := scope.embeds, depth := scope.depth }

/-- Renders a body on a copy of the current data. -/
def forked (body : Evaluation (List Value)) : Evaluation Value :=
  Evaluation.isolated (·.derive []) (return .array (← body))

/-- The ways to render the nodes of a body, given the values they evaluate to. -/
def Body.of (nodes : List Node) (values : Evaluation (List Value)) : Body :=
  ⟨nodes, finished nodes values, return .array (← values)⟩

namespace Scope

mutual

/-- Evaluates a node. -/
def render (scope : Scope) : Node → Evaluation Value
  | .raw _ data => return .bytes data
  | .literal _ constant => return constant.value
  | .interpolated _ nodes => return .string (← finished nodes (scope.renderAll nodes))
  | .identifier _ path => return (← Evaluation.data).get path
  | .infixOp _ op left right => do
    let a ← resolved (scope.render left)
    let b ← resolved (scope.render right)
    return op.apply a b
  | .negation _ operand => return .bool !(← resolved (scope.render operand)).truthy
  | .conditional _ condition body others => do
    if (← resolved (scope.render condition)).truthy then forked (scope.renderAll body)
    else scope.renderBranches others
  | .loop source key data body =>
    iterated source (scope.render key) (scope.render data) (scope.renderAll body)
  | .embed source path => scope.embed source (scope.render path)
  | .tag source name parameters none =>
    scope.call source name (scope.renderResolved parameters) none
  | .tag source name parameters (some body) =>
    scope.call source name (scope.renderResolved parameters)
      (some (.of body (scope.renderAll body)))
  | .host _ _ action => ExceptT.mk fun data => .done (action data)

def renderAll (scope : Scope) : List Node → Evaluation (List Value)
  | [] => return []
  | node :: rest => return (← scope.render node) :: (← scope.renderAll rest)

/-- Evaluates nodes in order and resolves each before the next. -/
def renderResolved (scope : Scope) : List Node → Evaluation (List Value)
  | [] => return []
  | node :: rest => return (← resolved (scope.render node)) :: (← scope.renderResolved rest)

/-- Evaluates the body of the first branch whose condition is truthy. -/
def renderBranches (scope : Scope) : List (Node × List Node) → Evaluation Value
  | [] => return .null
  | (condition, body) :: rest => do
    if (← resolved (scope.render condition)).truthy then forked (scope.renderAll body)
    else scope.renderBranches rest

end

/-- The text of nodes. -/
def serialize (scope : Scope) (nodes : List Node) : Evaluation String :=
  finished nodes (scope.renderAll nodes)

end Scope

end Stencil
