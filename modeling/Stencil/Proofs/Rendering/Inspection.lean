import Stencil.Proofs.Rendering.Recursion
import Stencil.Proofs.Value.Resolution

/-! # What rendering looks into is resolved

An evaluator gets at values in two ways: it looks into one value, as into an operand, a condition or
a parameter, or it makes a text of the values of nodes. When each of these ways is watched, and an
alarm goes off where something is still deferred, nothing changes: the alarm is on no branch that
evaluating a template can take. So no text is ever asked of a value that has none yet.
-/

namespace Stencil

open Routine (Always Assured OnSuccess)

/-! ## Ways to look into values -/

/-- The ways an evaluator gets at values: at the one of an evaluation, and at those that nodes
evaluate to, as their text. -/
structure Inspection where
  value : Evaluation Value → Evaluation Value
  text : List Node → Evaluation (List Value) → Evaluation String

namespace Inspection

/-- What is deferred is resolved first. -/
def resolving : Inspection := ⟨resolved, finished⟩

/-- What is deferred is resolved first, and an alarm goes off where it still is. -/
def watched (alarm : Error) : Inspection where
  value evaluation := do
    let seen ← resolved evaluation
    if seen.needsResolution then throw alarm else return seen
  text nodes values := do
    let seen ← Evaluation.ofAttempt (Routine.joinAll (Value.resolveItems (← values)))
    if Value.anyItem seen then throw alarm
    else Evaluation.ofAttempt (.of (flattenNodes nodes seen))

/-- Evaluates the body of the first branch whose condition is truthy. -/
def branches (inspection : Inspection) (evaluate : Node → Evaluation Value) :
    List (Node × List Node) → Evaluation Value
  | [] => return .null
  | (condition, body) :: rest => do
    if (← inspection.value (evaluate condition)).truthy then forked (body.mapM evaluate)
    else inspection.branches evaluate rest

/-- Renders a loop, given its key, its data and its body. -/
def iterated (inspection : Inspection) (source : Source) (key data : Evaluation Value)
    (body : Evaluation (List Value)) : Evaluation Value := do
  match (← inspection.value key).asString with
  | none => throw (.serialize .loopKey source)
  | some name =>
    match ← inspection.value data with
    | .null => return .null
    | .array items => forItems name items body
    | other => throw (.serialize (.loopData other.typeName) source)

/-- Embeds the template at the path that a value names. -/
def embed (inspection : Inspection) (scope : Scope) (source : Source) (path : Evaluation Value) :
    Evaluation Value := do
  let value ← inspection.value path
  match value.asString with
  | none => throw (.serialize (.embedPath value.typeName) source)
  | some text =>
    match scope.embedding with
    | .unavailable => throw (.serialize .noRenderer source)
    | .exhausted => throw (.serialize .embedDepth source)
    | .available render => return .string (← render text)

/-- Evaluates a node, with its children evaluated in a given way and looked into in another. -/
def step (inspection : Inspection) (scope : Scope) (evaluate : Node → Evaluation Value) :
    Node → Evaluation Value
  | .raw _ data => return .bytes data
  | .literal _ constant => return constant.value
  | .interpolated _ nodes => return .string (← inspection.text nodes (nodes.mapM evaluate))
  | .identifier _ path => return (← Evaluation.data).get path
  | .infixOp _ op left right => do
    let a ← inspection.value (evaluate left)
    let b ← inspection.value (evaluate right)
    return op.apply a b
  | .negation _ operand => return .bool !(← inspection.value (evaluate operand)).truthy
  | .conditional _ condition body others =>
    inspection.branches evaluate ((condition, body) :: others)
  | .loop source key data body =>
    inspection.iterated source (evaluate key) (evaluate data) (body.mapM evaluate)
  | .embed source path => inspection.embed scope source (evaluate path)
  | .tag source name parameters body =>
    scope.call source name (parameters.mapM fun node => inspection.value (evaluate node))
      (body.map fun nodes =>
        ⟨nodes, inspection.text nodes (nodes.mapM evaluate), return .array (← nodes.mapM evaluate)⟩)
  | .host _ _ action => ExceptT.mk fun data => .done (action data)

/-- Branches are taken by resolved conditions. -/
theorem branches_resolving (evaluate : Node → Evaluation Value)
    (others : List (Node × List Node)) :
    resolving.branches evaluate others = branchesBy evaluate others := by
  induction others with
  | nil => rfl
  | cons branch rest ih =>
    rw [branches, branchesBy, ih]
    rfl

/-- A step gets at values in these two ways only. -/
theorem step_resolving (scope : Scope) (evaluate : Node → Evaluation Value) (node : Node) :
    resolving.step scope evaluate node = scope.step evaluate node := by
  cases node with
  | conditional source condition body others =>
    exact branches_resolving evaluate ((condition, body) :: others)
  | _ => rfl

end Inspection

/-! ## The alarm never goes off -/

namespace Evaluation

variable {α β : Type} {P : α → Prop}

/-- An attempt goes on the same way with continuations that agree on all it can succeed with. -/
theorem ofAttempt_bind_congr {attempt : Attempt α} {f g : α → Evaluation β}
    (always : Always (OnSuccess P) attempt) (agree : ∀ a, P a → f a = g a) :
    ofAttempt attempt >>= f = ofAttempt attempt >>= g := by
  funext data
  change (ofAttempt attempt >>= f).runOn data = (ofAttempt attempt >>= g).runOn data
  rw [runOn_bind, runOn_bind, runOn_ofAttempt, Routine.bind_assoc, Routine.bind_assoc]
  refine always.bind_congr fun result success => ?_
  cases result with
  | ok a => exact congrArg (·.runOn data) (agree a (success a rfl))
  | error why => rfl

end Evaluation

theorem Value.anyItem_eq_false_iff {values : List Value} :
    anyItem values = false ↔ ∀ value ∈ values, value.needsResolution = false := by
  rw [← whole_array, needsResolution]

/-- Watching does not change what is seen. -/
theorem Inspection.watched_eq_resolving (alarm : Error) : watched alarm = resolving := by
  have value (evaluation : Evaluation Value) :
      (watched alarm).value evaluation = resolved evaluation := by
    simp only [watched, resolved, bind_assoc]
    refine bind_congr fun v => ?_
    conv_rhs => rw [← bind_pure (Evaluation.ofAttempt v.resolve)]
    refine Evaluation.ofAttempt_bind_congr v.resolve_always fun seen whole => ?_
    rw [whole]
    rfl
  have text (nodes : List Node) (values : Evaluation (List Value)) :
      (watched alarm).text nodes values = finished nodes values := by
    unfold watched finished
    refine bind_congr fun vs => ?_
    have always : Always (OnSuccess fun seen => ∀ value ∈ seen, value.needsResolution = false)
        (Routine.joinAll (Value.resolveItems vs)) := by
      rw [Value.resolveItems_eq_map]
      exact Always.joinAll (List.forall_mem_map.mpr fun v _ => v.resolve_always)
    refine Evaluation.ofAttempt_bind_congr always fun seen whole => ?_
    rw [Value.anyItem_eq_false_iff.mpr whole]
    rfl
  exact congr (congrArg Inspection.mk (funext value)) (funext₂ text)

/-- Whoever evaluates nodes step by step evaluates them as they are rendered. -/
theorem Scope.eq_render_iff_step {scope : Scope} {evaluate : Node → Evaluation Value} :
    (∀ node, evaluate node = scope.step evaluate node) ↔
      ∀ node, evaluate node = scope.render node := by
  constructor
  · intro steps node
    induction node using Node.child_induction with
    | step node ih =>
      rw [steps node, render_eq_step]
      exact step_congr rfl rfl rfl (fun _ _ _ => rfl) ih
  · intro same node
    rw [same node, render_eq_step]
    exact step_congr rfl rfl rfl (fun _ _ _ => rfl) fun child _ => (same child).symm

/-! ## Texts of values -/

theorem append_eq_error {ε : Type} {a b : Except ε String} {e : ε}
    (failed : (do return (← a) ++ (← b)) = Except.error e) : a = .error e ∨ b = .error e := by
  cases a with
  | error e' => exact .inl failed
  | ok front =>
    cases b with
    | error e' => exact .inr failed
    | ok back => cases failed

theorem Value.anyItem_of_flattenItems {items : List Value}
    (each : ∀ item ∈ items, item.flatten = .error .unresolved → item.needsResolution = true)
    (unresolved : flattenItems items = .error .unresolved) : anyItem items = true := by
  induction items with
  | nil => cases unresolved
  | cons item rest ih =>
    obtain ⟨first, others⟩ := List.forall_mem_cons.mp each
    rw [flattenItems] at unresolved
    rw [anyItem, Bool.or_eq_true]
    exact (append_eq_error unresolved).imp first (ih others)

/-- Only what is deferred has no text yet. -/
theorem Value.needsResolution_of_flatten {value : Value}
    (unresolved : value.flatten = .error .unresolved) : value.needsResolution = true := by
  induction value using parts_induction with
  | array items ih =>
    rw [flatten] at unresolved
    exact anyItem_of_flattenItems ih unresolved
  | failed | pending | lazy => rfl
  | bytes data =>
    rw [flatten] at unresolved
    split at unresolved <;> cases unresolved
  | map entries =>
    rw [flatten] at unresolved
    cases unresolved
  | _ => simp [flatten] at unresolved

/-- Where an unresolved value is reported, one of the values needs resolution. -/
theorem anyItem_of_flattenNodes {nodes : List Node} {values : List Value}
    {source : Option Source}
    (unresolved : flattenNodes nodes values = .error (.serialize .unresolved source)) :
    Value.anyItem values = true := by
  induction nodes generalizing values with
  | nil => cases values <;> cases unresolved
  | cons node nodes ih =>
    cases values with
    | nil => cases unresolved
    | cons value values =>
      rw [flattenNodes] at unresolved
      rw [Value.anyItem, Bool.or_eq_true]
      refine (append_eq_error unresolved).imp (fun failed => ?_) ih
      cases text : value.flatten with
      | ok text' =>
        rw [text] at failed
        cases failed
      | error fault =>
        rw [text] at failed
        cases failed
        exact Value.needsResolution_of_flatten text

/-- Resolving removes every deferred part and nothing else. It always ends: with a value that
everybody who resolves this one gets, or as something deferred in it fails, and which of the two is
told by the value alone. What comes out is whole, and resolving it again gives it at once, as it
does any whole value; arrays keep their items in order and maps their keys, each child being
replaced by what it resolves to. And rendering only looks into whole values: only what is deferred
makes a text fail as unresolved, and to watch each value that a step looks into or writes down, with
an alarm where it is not whole, is to evaluate nodes and to write them down as ever. -/
theorem resolution_complete :
    (∀ v : Value, Assured (fun _ => True)
      (fun
        | .ok w => v.Resolves w
        | .error why => v.Fails why) v.resolve) ∧
    (∀ v : Value, (∃ w, v.Resolves w) ↔ ∀ why, ¬ v.Fails why) ∧
    (∀ v w : Value, v.Resolves w → w.needsResolution = false ∧ w.resolve = .done (.ok w)) ∧
    (∀ v : Value, v.needsResolution = false → v.resolve = .done (.ok v)) ∧
    (∀ handle delay note v w,
      (Value.pending handle delay note (.ok v)).Resolves w ↔ v.Resolves w) ∧
    (∀ handle v w, (Value.lazy handle v).Resolves w ↔ v.Resolves w) ∧
    (∀ items w, (Value.array items).Resolves w ↔
      ∃ ws, w = .array ws ∧ List.Forall₂ Value.Resolves items ws) ∧
    (∀ entries w, (Value.map entries).Resolves w ↔ ∃ fs, w = .map fs ∧
      List.Forall₂ (fun entry f => entry.1 = f.1 ∧ entry.2.Resolves f.2) entries fs) ∧
    (∀ nodes values source, flattenNodes nodes values = .error (.serialize .unresolved source) →
      Value.anyItem values = true) ∧
    ∀ (alarm : Error) (scope : Scope),
      (∀ nodes, scope.serialize nodes =
        (Inspection.watched alarm).text nodes (nodes.mapM scope.render)) ∧
      ∀ evaluate : Node → Evaluation Value,
        (∀ node, evaluate node = (Inspection.watched alarm).step scope evaluate node) ↔
          ∀ node, evaluate node = scope.render node := by
  refine ⟨Value.resolve_ends, fun _ => Value.exists_resolves_iff,
    fun v w resolves => ⟨resolves.whole, Value.settled_of_whole resolves.whole⟩,
    fun v => Value.settled_of_whole, fun _ _ _ _ _ => Value.resolves_pending,
    fun _ _ _ => Value.resolves_lazy, fun _ _ => Value.resolves_array,
    fun _ _ => Value.resolves_map, fun _ _ _ => anyItem_of_flattenNodes, fun alarm scope => ?_⟩
  rw [Inspection.watched_eq_resolving]
  refine ⟨scope.serialize_eq_mapM, fun evaluate => ?_⟩
  simp only [Inspection.step_resolving]
  exact Scope.eq_render_iff_step

end Stencil
