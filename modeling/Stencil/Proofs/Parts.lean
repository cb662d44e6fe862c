import Mathlib.Logic.Relation
import Stencil.Proofs.Text.Cutting
import Stencil.Syntax

/-! # Parts of a tree

A node has children: the nodes that its form is put together from. Its parts are itself, its
children, their children, and so on; what holds of every part of a tree holds at any depth.
-/

namespace Stencil.Node

/-- The second node is what the first is put together from, with others or alone. -/
inductive Child : Node → Node → Prop
  | interpolated {source : Source} {nodes : List Node} {node : Node} (member : node ∈ nodes) :
      Child (.interpolated source nodes) node
  | left (source : Source) (op : InfixOp) (left right : Node) :
      Child (.infixOp source op left right) left
  | right (source : Source) (op : InfixOp) (left right : Node) :
      Child (.infixOp source op left right) right
  | operand (source : Source) (operand : Node) : Child (.negation source operand) operand
  | parameter {source : Source} {name : String} {parameters : List Node}
      {body : Option (List Node)} {node : Node} (member : node ∈ parameters) :
      Child (.tag source name parameters body) node
  | body {source : Source} {name : String} {parameters body : List Node} {node : Node}
      (member : node ∈ body) : Child (.tag source name parameters (some body)) node
  | condition (source : Source) (condition : Node) (body : List Node)
      (others : List (Node × List Node)) :
      Child (.conditional source condition body others) condition
  | block {source : Source} {condition : Node} {body : List Node}
      {others : List (Node × List Node)} {node : Node} (member : node ∈ body) :
      Child (.conditional source condition body others) node
  | otherCondition {source : Source} {condition : Node} {body : List Node}
      {others : List (Node × List Node)} {branch : Node × List Node} (among : branch ∈ others) :
      Child (.conditional source condition body others) branch.1
  | otherBlock {source : Source} {condition : Node} {body : List Node}
      {others : List (Node × List Node)} {branch : Node × List Node} {node : Node}
      (among : branch ∈ others) (member : node ∈ branch.2) :
      Child (.conditional source condition body others) node
  | loopKey (source : Source) (key data : Node) (body : List Node) :
      Child (.loop source key data body) key
  | loopData (source : Source) (key data : Node) (body : List Node) :
      Child (.loop source key data body) data
  | loopBody {source : Source} {key data : Node} {body : List Node} {node : Node}
      (member : node ∈ body) : Child (.loop source key data body) node
  | embedPath (source : Source) (path : Node) : Child (.embed source path) path

/-- The second node is the first, or stands in it at some depth. -/
def Part : Node → Node → Prop := Relation.ReflTransGen Child

variable {P : Node → Prop} {node child : Node}

/-- The lists of nodes in a node that are rendered like templates. -/
def blocks : Node → List (List Node)
  | interpolated _ nodes => [nodes]
  | tag _ _ _ body => body.toList
  | conditional _ _ body others => body :: others.map Prod.snd
  | loop _ _ _ body => [body]
  | _ => []

theorem child_of_block {block : List Node} (among : block ∈ node.blocks) (member : child ∈ block) :
    node.Child child := by
  cases node with
  | interpolated source nodes => exact .interpolated (List.mem_singleton.mp among ▸ member)
  | tag source name parameters body =>
    cases body with
    | none => cases among
    | some body => exact .body (List.mem_singleton.mp among ▸ member)
  | conditional source condition body others =>
    rcases List.mem_cons.mp among with rfl | inside
    · exact .block member
    · obtain ⟨branch, within, rfl⟩ := List.mem_map.mp inside
      exact .otherBlock within member
  | loop source key data body => exact .loopBody (List.mem_singleton.mp among ▸ member)
  | _ => cases among

theorem part_self (node : Node) : node.Part node := .refl

/-- The condition holds of the node and of everything in it. -/
def Everywhere (P : Node → Prop) (node : Node) : Prop := ∀ part, node.Part part → P part

theorem Everywhere.self (all : node.Everywhere P) : P node := all node node.part_self

/-- What holds everywhere in a node does in each of its children. -/
theorem Everywhere.inside (all : node.Everywhere P) (first : node.Child child) :
    child.Everywhere P := fun part rest => all part (.head first rest)

theorem Everywhere.imp {Q : Node → Prop} (all : node.Everywhere P)
    (weaker : ∀ part, P part → Q part) : node.Everywhere Q :=
  fun part inside => weaker part (all part inside)

/-- What follows for a node from what holds everywhere in it follows everywhere in it. -/
theorem Everywhere.spread {Q : Node → Prop} (all : node.Everywhere P)
    (follows : ∀ part, part.Everywhere P → Q part) : node.Everywhere Q :=
  fun part inside => follows part fun inner rest => all inner (inside.trans rest)

/-- What holds of a node and everywhere in its children holds everywhere in it. -/
theorem everywhere_of_children (holds : P node)
    (inside : ∀ child, node.Child child → child.Everywhere P) : node.Everywhere P := by
  intro part among
  rcases among.cases_head with rfl | ⟨child, first, rest⟩
  · exact holds
  · exact inside child first part rest

theorem everywhere_raw {source : Source} {data : List UInt8} (holds : P (.raw source data)) :
    Everywhere P (.raw source data) :=
  everywhere_of_children holds nofun

/-- A condition that goes over from a node to its children holds everywhere where it holds. -/
theorem everywhere_of_child (inherits : ∀ node child, P node → node.Child child → P child)
    (holds : P node) : node.Everywhere P := by
  intro part inside
  induction inside with
  | refl => exact holds
  | tail _ last ih => exact inherits _ _ ih last

/-! ## Induction from the children up -/

/-- What a node is put together from is smaller. -/
theorem Child.sizeOf_lt (inside : node.Child child) : sizeOf child < sizeOf node := by
  cases inside with
  | interpolated member | parameter member | body member | block member | loopBody member =>
    have smaller := List.sizeOf_lt_of_mem member
    simp only [interpolated.sizeOf_spec, tag.sizeOf_spec, conditional.sizeOf_spec,
      loop.sizeOf_spec, Option.some.sizeOf_spec]
    omega
  | left | right | operand | condition | loopKey | loopData | embedPath =>
    simp only [infixOp.sizeOf_spec, negation.sizeOf_spec, conditional.sizeOf_spec,
      loop.sizeOf_spec, embed.sizeOf_spec]
    omega
  | @otherCondition _ _ _ _ branch among =>
    have smaller := List.sizeOf_lt_of_mem among
    obtain ⟨condition, block⟩ := branch
    simp only [conditional.sizeOf_spec, Prod.mk.sizeOf_spec] at smaller ⊢
    omega
  | @otherBlock _ _ _ _ branch _ among member =>
    have smaller := List.sizeOf_lt_of_mem among
    have inside := List.sizeOf_lt_of_mem member
    obtain ⟨condition, block⟩ := branch
    simp only [conditional.sizeOf_spec, Prod.mk.sizeOf_spec] at smaller inside ⊢
    omega

/-- What holds of a node when it holds of its children holds of every node. -/
@[elab_as_elim]
theorem child_induction (step : ∀ node, (∀ child, node.Child child → P child) → P node)
    (node : Node) : P node :=
  step node fun child _ => child_induction step child
termination_by sizeOf node
decreasing_by exact Child.sizeOf_lt ‹_›

/-! ## Nodes that have a text -/

/-- What the node evaluates to has a text when this is so of everything in it: raw text is that of a
text, and nothing is known of where a path leads. -/
def Legible : Node → Prop
  | raw _ data => Utf8.Valid data
  | identifier .. | host .. => False
  | _ => True

/-- The nodes in the node that are rendered like templates are legible. -/
structure Tidy (node : Node) : Prop where
  blocks : ∀ block ∈ node.blocks, ∀ inner ∈ block, inner.Legible
  notHost : ∀ source number action, node ≠ .host source number action

/-- Nodes that are legible, with all in them that is rendered like templates. -/
def LegibleAll (nodes : List Node) : Prop := ∀ node ∈ nodes, node.Legible ∧ node.Everywhere Tidy

theorem legibleAll_nil : LegibleAll [] := nofun

theorem legibleAll_cons {nodes : List Node} :
    LegibleAll (node :: nodes) ↔ (node.Legible ∧ node.Everywhere Tidy) ∧ LegibleAll nodes :=
  List.forall_mem_cons

section Tidy

variable {source : Source}

theorem tidy_raw (data : List UInt8) : Everywhere Tidy (.raw source data) :=
  everywhere_of_children ⟨nofun, nofun⟩ nofun

theorem tidy_literal (constant : Literal) : Everywhere Tidy (.literal source constant) :=
  everywhere_of_children ⟨nofun, nofun⟩ nofun

theorem tidy_identifier (path : Path) : Everywhere Tidy (.identifier source path) :=
  everywhere_of_children ⟨nofun, nofun⟩ nofun

/-- An interpolated string is tidy when its nodes are legible. -/
theorem tidy_interpolated {nodes : List Node} (legible : LegibleAll nodes) :
    Everywhere Tidy (.interpolated source nodes) := by
  have blocks : ∀ block ∈ (interpolated source nodes).blocks, ∀ inner ∈ block, inner.Legible :=
    List.forall_mem_singleton.mpr fun inner member => (legible inner member).1
  refine everywhere_of_children ⟨blocks, nofun⟩ fun child inside => ?_
  cases inside with
  | interpolated member => exact (legible child member).2

theorem tidy_infixOp (op : InfixOp) {left right : Node} (one : left.Everywhere Tidy)
    (other : right.Everywhere Tidy) : Everywhere Tidy (.infixOp source op left right) := by
  refine everywhere_of_children ⟨nofun, nofun⟩ fun child inside => ?_
  cases inside with
  | left => exact one
  | right => exact other

theorem tidy_negation {operand : Node} (tidy : operand.Everywhere Tidy) :
    Everywhere Tidy (.negation source operand) := by
  refine everywhere_of_children ⟨nofun, nofun⟩ fun child inside => ?_
  cases inside with
  | operand => exact tidy

/-- A tag is tidy when its parameters are and its body is legible. -/
theorem tidy_tag (name : String) {parameters : List Node} {body : Option (List Node)}
    (given : ∀ node ∈ parameters, node.Everywhere Tidy)
    (legible : ∀ block ∈ body, LegibleAll block) :
    Everywhere Tidy (.tag source name parameters body) := by
  have blocks : ∀ block ∈ (tag source name parameters body).blocks, ∀ inner ∈ block,
      inner.Legible := fun block among inner member =>
    (legible block (Option.mem_toList.mp among) inner member).1
  refine everywhere_of_children ⟨blocks, nofun⟩ fun child inside => ?_
  cases inside with
  | parameter member => exact given child member
  | body member => exact (legible _ rfl child member).2

theorem tidy_conditional {condition : Node} {body : List Node} {others : List (Node × List Node)}
    (tested : condition.Everywhere Tidy) (legible : LegibleAll body)
    (branches : ∀ branch ∈ others, branch.1.Everywhere Tidy ∧ LegibleAll branch.2) :
    Everywhere Tidy (.conditional source condition body others) := by
  have blocks : ∀ block ∈ (conditional source condition body others).blocks, ∀ inner ∈ block,
      inner.Legible := by
    refine List.forall_mem_cons.mpr ⟨fun inner member => (legible inner member).1, ?_⟩
    refine List.forall_mem_map.mpr fun branch among inner member => ?_
    exact ((branches branch among).2 inner member).1
  refine everywhere_of_children ⟨blocks, nofun⟩ fun child inside => ?_
  cases inside with
  | condition => exact tested
  | block member => exact (legible child member).2
  | otherCondition among => exact (branches _ among).1
  | otherBlock among member => exact ((branches _ among).2 child member).2

theorem tidy_loop {key data : Node} {body : List Node} (named : key.Everywhere Tidy)
    (ranged : data.Everywhere Tidy) (legible : LegibleAll body) :
    Everywhere Tidy (.loop source key data body) := by
  have blocks : ∀ block ∈ (loop source key data body).blocks, ∀ inner ∈ block, inner.Legible :=
    List.forall_mem_singleton.mpr fun inner member => (legible inner member).1
  refine everywhere_of_children ⟨blocks, nofun⟩ fun child inside => ?_
  cases inside with
  | loopKey => exact named
  | loopData => exact ranged
  | loopBody member => exact (legible child member).2

theorem tidy_embed {path : Node} (tidy : path.Everywhere Tidy) :
    Everywhere Tidy (.embed source path) := by
  refine everywhere_of_children ⟨nofun, nofun⟩ fun child inside => ?_
  cases inside with
  | embedPath => exact tidy

end Tidy

end Stencil.Node
