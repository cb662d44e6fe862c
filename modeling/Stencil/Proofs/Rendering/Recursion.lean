import Mathlib
import Stencil.Proofs.Parts
import Stencil.Proofs.Rendering.Inlining

/-! # Why rendering ends

To evaluate a node its children are evaluated in the same scope, and where a template is embedded
its nodes are, one level deeper. These nodes need not be smaller than the one that embeds them, nor
different from what lies around it. But the levels are limited, and within a level only the syntax
is taken apart. So the recursion, written down with its calls left open, has exactly one solution,
and it is what the renderer does.
-/

namespace Stencil

/-- The evaluation of a node that lies inside of some templates. -/
structure Request where
  depth : Nat
  node : Node

/-- A way to evaluate nodes at any depth. -/
abbrev Evaluator := Request → Evaluation Value

namespace Request

/-- The first evaluation may ask for the second: of a child in the same scope, or of any node one
level deeper when a template may be embedded. -/
inductive Asks : Request → Request → Prop
  | inside (depth : Nat) {node child : Node} (part : node.Child child) :
      Asks ⟨depth, node⟩ ⟨depth, child⟩
  | embedded {depth : Nat} (free : depth < maxEmbedDepth) (source : Source) (path node : Node) :
      Asks ⟨depth, .embed source path⟩ ⟨depth + 1, node⟩

/-- How far the recursion can still go: first the levels that are left, then the syntax. -/
noncomputable def potential (request : Request) : Nat ×ₗ Nat :=
  toLex (maxEmbedDepth - request.depth, sizeOf request.node)

/-- What is asked for is smaller, or lies in a template one level deeper. -/
theorem Asks.decreases {r r' : Request} (asks : r.Asks r') : r'.potential < r.potential := by
  rw [potential, potential, Prod.Lex.toLex_lt_toLex]
  cases asks with
  | inside depth part => exact .inr ⟨rfl, part.sizeOf_lt⟩
  | embedded free source path node =>
    left
    dsimp only
    omega

/-- No request lies deeper than templates may embed each other. -/
theorem Asks.depth_le {r r' : Request} (asks : r.Asks r') (within : r.depth ≤ maxEmbedDepth) :
    r'.depth ≤ maxEmbedDepth := by
  cases asks with
  | inside depth part => exact within
  | embedded free source path node => exact free

theorem depth_le_of_asks {r r' : Request} (asks : Relation.ReflTransGen Asks r r')
    (within : r.depth ≤ maxEmbedDepth) : r'.depth ≤ maxEmbedDepth := by
  induction asks with
  | refl => exact within
  | tail _ last ih => exact last.depth_le ih

/-- What is so of a request when it is so of all that it asks for is so of every request. -/
theorem asks_induction {P : Request → Prop}
    (step : ∀ r, (∀ r', r.Asks r' → P r') → P r) (r : Request) : P r :=
  step r fun r' _ => asks_induction step r'
termination_by r.potential
decreasing_by exact Asks.decreases ‹_›

end Request

open Request (Asks)
open Routine (Assured)

/-! ## The recursion with open calls -/

/-- Evaluates the body of the first branch whose condition is truthy. -/
def branchesBy (evaluate : Node → Evaluation Value) :
    List (Node × List Node) → Evaluation Value
  | [] => return .null
  | (condition, body) :: rest => do
    if (← resolved (evaluate condition)).truthy then forked (body.mapM evaluate)
    else branchesBy evaluate rest

/-- Evaluates a node, with its children evaluated in a given way. -/
def Scope.step (scope : Scope) (evaluate : Node → Evaluation Value) : Node → Evaluation Value
  | .raw _ data => return .bytes data
  | .literal _ constant => return constant.value
  | .interpolated _ nodes => return .string (← finished nodes (nodes.mapM evaluate))
  | .identifier _ path => return (← Evaluation.data).get path
  | .infixOp _ op left right => do
    let a ← resolved (evaluate left)
    let b ← resolved (evaluate right)
    return op.apply a b
  | .negation _ operand => return .bool !(← resolved (evaluate operand)).truthy
  | .conditional _ condition body others => branchesBy evaluate ((condition, body) :: others)
  | .loop source key data body =>
    iterated source (evaluate key) (evaluate data) (body.mapM evaluate)
  | .embed source path => scope.embed source (evaluate path)
  | .tag source name parameters body =>
    scope.call source name (parameters.mapM fun node => resolved (evaluate node))
      (body.map fun nodes => .of nodes (nodes.mapM evaluate))
  | .host _ _ action => ExceptT.mk fun data => .done (action data)

namespace Renderer

/-- The text of the template at a path at a depth, with its nodes evaluated in a given way. -/
def textBy (renderer : Renderer) (evaluate : Evaluator) (depth : Nat) (path : String) :
    Evaluation String := do
  let nodes ← Evaluation.ofAttempt (renderer.load (renderer.config.resolve path))
  finished nodes (nodes.mapM fun node => evaluate ⟨depth, node⟩)

/-- The scope at a depth, from which a template may be embedded one level deeper. -/
def scopeBy (renderer : Renderer) (evaluate : Evaluator) (depth : Nat) : Scope where
  tags := renderer.tags
  embedding :=
    if depth < maxEmbedDepth then .available (renderer.textBy evaluate (depth + 1)) else .exhausted
  depth := depth

/-- Evaluates a node at a depth, with all that it asks for evaluated in a given way. -/
def step (renderer : Renderer) (evaluate : Evaluator) : Evaluator := fun r =>
  (renderer.scopeBy evaluate r.depth).step (fun node => evaluate ⟨r.depth, node⟩) r.node

def evaluate (renderer : Renderer) : Evaluator := fun r =>
  (renderer.scopeAt r.depth).render r.node

end Renderer

/-! ## What a step asks for -/

section Congruence

variable {f g : Node → Evaluation Value}

theorem mapM_congr {α β : Type} {f g : α → Evaluation β} {items : List α}
    (same : ∀ item ∈ items, f item = g item) : items.mapM f = items.mapM g := by
  induction items with
  | nil => rfl
  | cons item items ih =>
    obtain ⟨first, others⟩ := List.forall_mem_cons.mp same
    rw [List.mapM_cons, List.mapM_cons, first, ih others]

/-- Branches depend on their conditions and bodies alone. -/
theorem branchesBy_congr {branches : List (Node × List Node)}
    (conditions : ∀ branch ∈ branches, f branch.1 = g branch.1)
    (bodies : ∀ branch ∈ branches, ∀ node ∈ branch.2, f node = g node) :
    branchesBy f branches = branchesBy g branches := by
  induction branches with
  | nil => rfl
  | cons branch rest ih =>
    obtain ⟨condition, body⟩ := branch
    obtain ⟨first, others⟩ := List.forall_mem_cons.mp conditions
    obtain ⟨block, blocks⟩ := List.forall_mem_cons.mp bodies
    rw [branchesBy, branchesBy, first, mapM_congr block, ih others blocks]

/-- A step uses the evaluation of children only, and embeds only at a node that does. -/
theorem Scope.step_congr {x y : Scope} (tags : x.tags = y.tags) (depth : x.depth = y.depth)
    (embeds : x.embeds = y.embeds) {node : Node}
    (embedding : ∀ source path, node = .embed source path → x.embedding = y.embedding)
    (same : ∀ child, node.Child child → f child = g child) : x.step f node = y.step g node := by
  cases node with
  | raw | literal | identifier | host => rfl
  | interpolated source nodes =>
    simp only [step, mapM_congr fun node member => same node (.interpolated member)]
  | infixOp source op left right =>
    simp only [step, same left (.left _ _ _ _), same right (.right _ _ _ _)]
  | negation source operand => simp only [step, same operand (.operand _ _)]
  | conditional source condition body others =>
    refine branchesBy_congr ?_ ?_
    · exact List.forall_mem_cons.mpr ⟨same _ (.condition _ _ _ _),
        fun branch among => same _ (.otherCondition among)⟩
    · exact List.forall_mem_cons.mpr ⟨fun node member => same _ (.block member),
        fun branch among node member => same _ (.otherBlock among member)⟩
  | loop source key data body =>
    simp only [step, same key (.loopKey _ _ _ _), same data (.loopData _ _ _ _),
      mapM_congr fun node member => same node (.loopBody member)]
  | embed source path =>
    simp only [step, same path (.embedPath _ _), Scope.embed, embedding source path rfl]
  | tag source name parameters body =>
    have given : (parameters.mapM fun node => resolved (f node)) =
        parameters.mapM fun node => resolved (g node) :=
      mapM_congr fun node member => congrArg resolved (same node (.parameter member))
    have bodies : (body.map fun nodes => Body.of nodes (nodes.mapM f)) =
        body.map fun nodes => Body.of nodes (nodes.mapM g) := by
      cases body with
      | none => rfl
      | some nodes =>
        simp only [Option.map_some, mapM_congr fun node member => same node (.body member)]
    simp only [step, Scope.call, tags, depth, embeds, given, bodies]

end Congruence

namespace Renderer

variable {renderer : Renderer} {evaluate evaluate' : Evaluator}

theorem textBy_congr {depth : Nat}
    (same : ∀ node, evaluate ⟨depth, node⟩ = evaluate' ⟨depth, node⟩) :
    renderer.textBy evaluate depth = renderer.textBy evaluate' depth := by
  funext path
  simp only [textBy, same]

theorem embeds_scopeBy (renderer : Renderer) (evaluate : Evaluator) (depth : Nat) :
    (renderer.scopeBy evaluate depth).embeds = true := by
  unfold Scope.embeds scopeBy
  by_cases free : depth < maxEmbedDepth
  · rw [if_pos free]
  · rw [if_neg free]

/-- Evaluations of what is asked for are all that a step uses. -/
theorem step_congr {r : Request} (same : ∀ r', r.Asks r' → evaluate r' = evaluate' r') :
    renderer.step evaluate r = renderer.step evaluate' r := by
  obtain ⟨depth, node⟩ := r
  have embeds := (renderer.embeds_scopeBy evaluate depth).trans
    (renderer.embeds_scopeBy evaluate' depth).symm
  have tags : (renderer.scopeBy evaluate depth).tags = (renderer.scopeBy evaluate' depth).tags := rfl
  refine Scope.step_congr tags rfl embeds ?_ fun child part => same _ (.inside depth part)
  rintro source path rfl
  unfold scopeBy
  by_cases free : depth < maxEmbedDepth
  · simp only [if_pos free, textBy_congr fun node => same ⟨depth + 1, node⟩ (.embedded free _ _ _)]
  · simp only [if_neg free]

end Renderer

/-! ## The solution -/

namespace Scope

variable (scope : Scope)

theorem renderAll_eq_mapM (nodes : List Node) : scope.renderAll nodes = nodes.mapM scope.render := by
  induction nodes with
  | nil => rw [renderAll, List.mapM_nil]
  | cons node rest ih => rw [renderAll, List.mapM_cons, ih]

theorem renderResolved_eq_mapM (nodes : List Node) :
    scope.renderResolved nodes = nodes.mapM fun node => resolved (scope.render node) := by
  induction nodes with
  | nil => rw [renderResolved, List.mapM_nil]
  | cons node rest ih => rw [renderResolved, List.mapM_cons, ih]

theorem renderBranches_eq_branchesBy (branches : List (Node × List Node)) :
    scope.renderBranches branches = branchesBy scope.render branches := by
  induction branches with
  | nil => rw [renderBranches, branchesBy]
  | cons branch rest ih =>
    obtain ⟨condition, body⟩ := branch
    rw [renderBranches, branchesBy, ih, renderAll_eq_mapM]

/-- A scope renders every node by those that it asks for. -/
theorem render_eq_step (node : Node) : scope.render node = scope.step scope.render node := by
  cases node with
  | conditional source condition body others =>
    simp only [render, step, branchesBy, renderAll_eq_mapM, renderBranches_eq_branchesBy]
  | tag source name parameters body =>
    cases body <;> simp only [render, step, renderAll_eq_mapM, renderResolved_eq_mapM,
      Option.map_none, Option.map_some]
  | _ => simp only [render, step, renderAll_eq_mapM]

theorem serialize_eq_mapM (nodes : List Node) :
    scope.serialize nodes = finished nodes (nodes.mapM scope.render) := by
  rw [serialize, renderAll_eq_mapM]

end Scope

namespace Renderer

variable {renderer : Renderer}

/-- The scope at a depth evaluates as the renderer does. -/
theorem scopeAt_eq_scopeBy (depth : Nat) :
    renderer.scopeAt depth = renderer.scopeBy renderer.evaluate depth := by
  have embedding : renderer.embedding (maxEmbedDepth - depth) =
      (renderer.scopeBy renderer.evaluate depth).embedding := by
    unfold scopeBy
    by_cases free : depth < maxEmbedDepth
    · have level : maxEmbedDepth - depth = maxEmbedDepth - (depth + 1) + 1 := by omega
      have inside : maxEmbedDepth - (maxEmbedDepth - (depth + 1)) = depth + 1 := by omega
      rw [level, Renderer.embedding, inside, if_pos free]
      simp only [Scope.serialize_eq_mapM]
      rfl
    · rw [if_neg free, Nat.sub_eq_zero_of_le (Nat.le_of_not_lt free)]
      rfl
  unfold scopeAt
  rw [embedding]
  rfl

/-- The renderer evaluates by the recursion. -/
theorem evaluate_eq_step (r : Request) : renderer.evaluate r = renderer.step renderer.evaluate r := by
  change (renderer.scopeAt r.depth).render r.node =
    (renderer.scopeBy renderer.evaluate r.depth).step (renderer.scopeAt r.depth).render r.node
  rw [← scopeAt_eq_scopeBy]
  exact Scope.render_eq_step _ _

/-- Whatever evaluates by the recursion where it can go evaluates as the renderer does. -/
theorem eq_evaluate_of_step {evaluate : Evaluator}
    (solves : ∀ r, r.depth ≤ maxEmbedDepth → evaluate r = renderer.step evaluate r) (r : Request)
    (within : r.depth ≤ maxEmbedDepth) : evaluate r = renderer.evaluate r := by
  induction r using Request.asks_induction with
  | step r ih =>
    -- Both take the same step, and it uses nothing but what is asked for.
    rw [solves r within, evaluate_eq_step]
    exact step_congr fun r' asks => ih r' asks (asks.depth_le within)

/-- Rendering is a recursion with calls that get smaller: fewer levels are left or, on the same
level, less syntax. No call lies deeper than templates may be embedded. A step depends on nothing
but its calls, so there is one way to evaluate nodes and no other, and with it templates are
rendered, by path or directly. Every render ends, whatever the templates and the data are and
whatever others do to the store meanwhile. -/
theorem recursion_ends (renderer : Renderer) :
    (∀ r r' : Request, r.Asks r' → r'.potential < r.potential) ∧
      (∀ r r' : Request, Relation.ReflTransGen Asks r r' → r.depth ≤ maxEmbedDepth →
        r'.depth ≤ maxEmbedDepth) ∧
      (∀ (e e' : Evaluator) (r : Request), (∀ r', r.Asks r' → e r' = e' r') →
        renderer.step e r = renderer.step e' r) ∧
      (∀ e : Evaluator, (∀ r, r.depth ≤ maxEmbedDepth → e r = renderer.step e r) ↔
        ∀ r, r.depth ≤ maxEmbedDepth → e r = renderer.evaluate r) ∧
      (∀ path, renderer.renderPath path = renderer.textBy renderer.evaluate 0 path ∧
        ∀ data, Assured (fun _ => True) (fun _ => True) ((renderer.renderPath path).runOn data)) ∧
      ∀ buffer, (renderer.renderBuffer buffer = do
          let nodes ← Evaluation.ofAttempt (renderer.parse buffer)
          finished nodes (nodes.mapM fun node => renderer.evaluate ⟨0, node⟩)) ∧
        ∀ data, Assured (fun _ => True) (fun _ => True)
          ((renderer.renderBuffer buffer).runOn data) := by
  refine ⟨fun _ _ => Asks.decreases, fun _ _ => Request.depth_le_of_asks,
    fun _ _ _ => step_congr, fun e => ⟨eq_evaluate_of_step, fun same r within => ?_⟩, fun path => ?_,
    fun buffer => ?_⟩
  · rw [same r within, evaluate_eq_step]
    exact step_congr fun r' asks => (same r' (asks.depth_le within)).symm
  · refine ⟨?_, fun data => .free _⟩
    simp only [renderPath, textBy, ← scopeAt_zero, Scope.serialize_eq_mapM]
    rfl
  · refine ⟨?_, fun data => .free _⟩
    simp only [renderBuffer, ← scopeAt_zero, Scope.serialize_eq_mapM]
    rfl

end Renderer

end Stencil
