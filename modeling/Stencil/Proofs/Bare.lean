import Stencil.Syntax

/-! # Trees up to the places they were read from

A bare tree has lost its sources. Two trees with one bare form differ in nothing but where they
stand, so a statement about the shape of a tree is a statement about its bare form.
-/

namespace Stencil

def nowhere : Source := .detached ""

namespace Node

mutual

/-- The node without its sources. -/
def bare : Node → Node
  | raw _ data => raw nowhere data
  | literal _ constant => literal nowhere constant
  | interpolated _ nodes => interpolated nowhere (bareAll nodes)
  | identifier _ path => identifier nowhere path
  | infixOp _ op left right => infixOp nowhere op left.bare right.bare
  | negation _ operand => negation nowhere operand.bare
  | tag _ name parameters none => tag nowhere name (bareAll parameters) none
  | tag _ name parameters (some body) =>
    tag nowhere name (bareAll parameters) (some (bareAll body))
  | conditional _ condition body others =>
    conditional nowhere condition.bare (bareAll body) (bareBranches others)
  | loop _ key data body => loop nowhere key.bare data.bare (bareAll body)
  | embed _ path => embed nowhere path.bare
  | host _ number action => host nowhere number action

def bareAll : List Node → List Node
  | [] => []
  | node :: rest => node.bare :: bareAll rest

def bareBranches : List (Node × List Node) → List (Node × List Node)
  | [] => []
  | (condition, body) :: rest => (condition.bare, bareAll body) :: bareBranches rest

end

end Node

end Stencil
