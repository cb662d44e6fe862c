import Stencil.Syntax

/-! # Trees up to what their host nodes do

Two trees are like each other when they are the same in everything but the actions of their host
nodes, which are related. Host nodes come from the program that uses the library, and a statement
about two programs that differ there compares trees in this way.
-/

namespace Stencil.Node

variable {H : HostAction → HostAction → Prop}

mutual

/-- The same node, with related host actions. -/
inductive Like (H : HostAction → HostAction → Prop) : Node → Node → Prop
  | raw (source : Source) (data : List UInt8) : Like H (.raw source data) (.raw source data)
  | literal (source : Source) (constant : Literal) :
      Like H (.literal source constant) (.literal source constant)
  | interpolated (source : Source) {nodes nodes' : List Node} (same : LikeAll H nodes nodes') :
      Like H (.interpolated source nodes) (.interpolated source nodes')
  | identifier (source : Source) (path : Path) :
      Like H (.identifier source path) (.identifier source path)
  | infixOp (source : Source) (op : InfixOp) {left left' right right' : Node}
      (first : Like H left left') (second : Like H right right') :
      Like H (.infixOp source op left right) (.infixOp source op left' right')
  | negation (source : Source) {operand operand' : Node} (same : Like H operand operand') :
      Like H (.negation source operand) (.negation source operand')
  | tag (source : Source) (name : String) {parameters parameters' : List Node}
      (given : LikeAll H parameters parameters') :
      Like H (.tag source name parameters none) (.tag source name parameters' none)
  | tagWithBody (source : Source) (name : String) {parameters parameters' body body' : List Node}
      (given : LikeAll H parameters parameters') (bodies : LikeAll H body body') :
      Like H (.tag source name parameters (some body)) (.tag source name parameters' (some body'))
  | conditional (source : Source) {condition condition' : Node} {body body' : List Node}
      {others others' : List (Node × List Node)} (conditions : Like H condition condition')
      (bodies : LikeAll H body body') (rest : LikeBranches H others others') :
      Like H (.conditional source condition body others)
        (.conditional source condition' body' others')
  | loop (source : Source) {key key' data data' : Node} {body body' : List Node}
      (keys : Like H key key') (sources : Like H data data') (bodies : LikeAll H body body') :
      Like H (.loop source key data body) (.loop source key' data' body')
  | embed (source : Source) {path path' : Node} (paths : Like H path path') :
      Like H (.embed source path) (.embed source path')
  | host (source : Source) (number : Nat) {action action' : HostAction} (same : H action action') :
      Like H (.host source number action) (.host source number action')

inductive LikeAll (H : HostAction → HostAction → Prop) : List Node → List Node → Prop
  | nil : LikeAll H [] []
  | cons {node node' : Node} {rest rest' : List Node} (first : Like H node node')
      (others : LikeAll H rest rest') : LikeAll H (node :: rest) (node' :: rest')

inductive LikeBranches (H : HostAction → HostAction → Prop) :
    List (Node × List Node) → List (Node × List Node) → Prop
  | nil : LikeBranches H [] []
  | cons {condition condition' : Node} {body body' : List Node}
      {rest rest' : List (Node × List Node)} (conditions : Like H condition condition')
      (bodies : LikeAll H body body') (others : LikeBranches H rest rest') :
      LikeBranches H ((condition, body) :: rest) ((condition', body') :: rest')

end

theorem Like.source_eq {node node' : Node} (same : Like H node node') :
    node.source = node'.source := by
  cases same <;> rfl

theorem LikeAll.length_eq {nodes nodes' : List Node} :
    LikeAll H nodes nodes' → nodes.length = nodes'.length
  | .nil => rfl
  | .cons _ others => congrArg (· + 1) others.length_eq

mutual

theorem Like.flip {H' : HostAction → HostAction → Prop} (hosts : ∀ a b, H a b → H' b a)
    {node node' : Node} : Like H node node' → Like H' node' node
  | .raw source data => .raw source data
  | .literal source constant => .literal source constant
  | .interpolated source nodes => .interpolated source (nodes.flip hosts)
  | .identifier source path => .identifier source path
  | .infixOp source op first second => .infixOp source op (first.flip hosts) (second.flip hosts)
  | .negation source operand => .negation source (operand.flip hosts)
  | .tag source name given => .tag source name (given.flip hosts)
  | .tagWithBody source name given bodies =>
    .tagWithBody source name (given.flip hosts) (bodies.flip hosts)
  | .conditional source conditions bodies rest =>
    .conditional source (conditions.flip hosts) (bodies.flip hosts) (rest.flip hosts)
  | .loop source keys sources bodies =>
    .loop source (keys.flip hosts) (sources.flip hosts) (bodies.flip hosts)
  | .embed source paths => .embed source (paths.flip hosts)
  | .host source number same => .host source number (hosts _ _ same)

/-- Likeness may be read from right to left. -/
theorem LikeAll.flip {H' : HostAction → HostAction → Prop} (hosts : ∀ a b, H a b → H' b a)
    {nodes nodes' : List Node} : LikeAll H nodes nodes' → LikeAll H' nodes' nodes
  | .nil => .nil
  | .cons first others => .cons (first.flip hosts) (others.flip hosts)

theorem LikeBranches.flip {H' : HostAction → HostAction → Prop} (hosts : ∀ a b, H a b → H' b a)
    {branches branches' : List (Node × List Node)} :
    LikeBranches H branches branches' → LikeBranches H' branches' branches
  | .nil => .nil
  | .cons conditions bodies others =>
    .cons (conditions.flip hosts) (bodies.flip hosts) (others.flip hosts)

end

theorem LikeAll.imp {H' : HostAction → HostAction → Prop} {nodes nodes' : List Node}
    (like : LikeAll H nodes nodes') (hosts : ∀ a b, H a b → H' a b) : LikeAll H' nodes nodes' :=
  by
  have flipped : LikeAll (fun b a => H a b) nodes' nodes := like.flip fun _ _ same => same
  exact flipped.flip fun b a => hosts a b

mutual

/-- A node is like itself, as its host actions are. -/
theorem like_refl (refl : ∀ action, H action action) : ∀ node : Node, Like H node node
  | .raw source data => .raw source data
  | .literal source constant => .literal source constant
  | .interpolated source nodes => .interpolated source (likeAll_refl refl nodes)
  | .identifier source path => .identifier source path
  | .infixOp source op left right => .infixOp source op (like_refl refl left) (like_refl refl right)
  | .negation source operand => .negation source (like_refl refl operand)
  | .tag source name parameters none => .tag source name (likeAll_refl refl parameters)
  | .tag source name parameters (some body) =>
    .tagWithBody source name (likeAll_refl refl parameters) (likeAll_refl refl body)
  | .conditional source condition body others =>
    .conditional source (like_refl refl condition) (likeAll_refl refl body)
      (likeBranches_refl refl others)
  | .loop source key data body =>
    .loop source (like_refl refl key) (like_refl refl data) (likeAll_refl refl body)
  | .embed source path => .embed source (like_refl refl path)
  | .host source number action => .host source number (refl action)

theorem likeAll_refl (refl : ∀ action, H action action) :
    ∀ nodes : List Node, LikeAll H nodes nodes
  | [] => .nil
  | node :: rest => .cons (like_refl refl node) (likeAll_refl refl rest)

theorem likeBranches_refl (refl : ∀ action, H action action) :
    ∀ branches : List (Node × List Node), LikeBranches H branches branches
  | [] => .nil
  | (condition, body) :: rest =>
    .cons (like_refl refl condition) (likeAll_refl refl body) (likeBranches_refl refl rest)

end

end Stencil.Node
