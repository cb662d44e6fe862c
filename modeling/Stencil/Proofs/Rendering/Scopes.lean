import Stencil.Proofs.Likeness
import Stencil.Proofs.Rendering.Comparison

/-! # Rendering in scopes that compare

Rendering depends on its scope only through the handlers of tags and through what an embedded
template renders to. So under any comparison scopes with handlers that compare, whose embedded
templates compare, render every node alike. The induction over the syntax is done here, once for
all comparisons.
-/

namespace Stencil

open Evaluation Comparison

variable {C : Comparison}

/-! ## Parts of a node -/

theorem resolveItems_related {vs ws : List Value} (same : List.Forall₂ C.Val vs ws) :
    List.Forall₂ (C.Rel Eq) (Value.resolveItems vs) (Value.resolveItems ws) := by
  induction same with
  | nil => exact .nil
  | cons first _ ih => exact .cons (C.resolve first) ih

/-- The text of values does not depend on host actions. -/
theorem flattenNodes_like {H : HostAction → HostAction → Prop} {nodes nodes' : List Node}
    (like : Node.LikeAll H nodes nodes') (values : List Value) :
    flattenNodes nodes values = flattenNodes nodes' values := by
  match like, values with
  | .nil, _ => rfl
  | .cons _ _, [] => rfl
  | .cons first others, value :: values =>
    rw [flattenNodes, flattenNodes, first.source_eq, flattenNodes_like others values]

theorem finished_related {H : HostAction → HostAction → Prop} {nodes nodes' : List Node}
    (like : Node.LikeAll H nodes nodes') {values values' : Evaluation (List Value)}
    (same : C.Related (List.Forall₂ C.Val) values values') :
    C.Related Eq (finished nodes values) (finished nodes' values') := by
  apply same.bind
  intro vs ws same
  apply Related.bind (.ofAttempt (C.joinAll (resolveItems_related same)))
  intro resolved resolved' same
  rw [List.forall₂_eq_eq_eq] at same
  subst same
  rw [flattenNodes_like like]
  cases flattenNodes nodes' resolved with
  | ok text => exact .ofAttempt (C.ok rfl)
  | error why => exact .ofAttempt (C.error why)

theorem resolved_related {value value' : Evaluation Value} (same : C.Related C.Val value value') :
    C.Related Eq (resolved value) (resolved value') := by
  apply same.bind
  exact fun _ _ same => .ofAttempt (C.resolve same)

theorem values_related {values values' : Evaluation (List Value)}
    (same : C.Related (List.Forall₂ C.Val) values values') :
    C.Related C.Val (return .array (← values)) (return .array (← values')) :=
  same.bind fun _ _ same => .pure (C.array same)

theorem forked_related {body body' : Evaluation (List Value)}
    (same : C.Related (List.Forall₂ C.Val) body body') :
    C.Related C.Val (forked body) (forked body') := (values_related same).isolated []

/-- Loops over the same items compare as their bodies do. -/
theorem forItems_related (key : String) (items : List Value) {body body' : Evaluation (List Value)}
    (same : C.Related (List.Forall₂ C.Val) body body') :
    C.Related C.Val (forItems key items body) (forItems key items body') := by
  unfold forItems
  apply Related.bind .data
  intro x y data
  have each (bindings : Nat → Value → List (String × Value)) : List.Forall₂
      (C.Rel (List.Forall₂ C.Val))
      (items.mapIdx fun place item => body.attemptOn (x.derive (bindings place item)))
      (items.mapIdx fun place item => body'.attemptOn (y.derive (bindings place item))) := by
    induction items generalizing bindings with
    | nil => exact .nil
    | cons item items ih =>
      rw [List.mapIdx_cons, List.mapIdx_cons]
      exact .cons (same.attemptOn (C.derive data _)) (ih fun place item => bindings (place + 1) item)
  apply Related.bind (.ofAttempt (C.joinAll (each (loopBindings key items.length))))
  intro vs ws same
  refine .pure (C.array ?_)
  rw [List.forall₂_map_left_iff, List.forall₂_map_right_iff]
  exact same.imp fun _ _ => C.array

theorem iterated_related (source : Source) {key key' data data' : Evaluation Value}
    {body body' : Evaluation (List Value)} (keys : C.Related C.Val key key')
    (sources : C.Related C.Val data data')
    (bodies : C.Related (List.Forall₂ C.Val) body body') :
    C.Related C.Val (iterated source key data body) (iterated source key' data' body') := by
  unfold iterated
  apply (resolved_related keys).bind
  rintro key _ rfl
  cases key.asString with
  | none => exact .throw _
  | some name =>
    apply (resolved_related sources).bind
    rintro data _ rfl
    cases data with
    | null => exact .pure (C.refl _)
    | array items => exact forItems_related name items bodies
    | _ => exact .throw _

/-! ## Scopes -/

/-- What an embedding does with the path of a template. -/
def Embedding.render (embedding : Embedding) (source : Source) (path : String) :
    Evaluation String :=
  match embedding with
  | unavailable => throw (.serialize .noRenderer source)
  | exhausted => throw (.serialize .embedDepth source)
  | available render => render path

theorem Scope.embed_eq (scope : Scope) (source : Source) (path : Evaluation Value) :
    scope.embed source path = resolved path >>= fun value =>
      match value.asString with
      | none => throw (.serialize (.embedPath value.typeName) source)
      | some text => scope.embedding.render source text >>= fun text => return .string text := by
  unfold Scope.embed Embedding.render
  refine congrArg _ (funext fun value => ?_)
  cases value.asString with
  | none => rfl
  | some text => cases scope.embedding <;> rfl

namespace Comparison

/-- Bodies whose texts and values compare. -/
structure Bodies (C : Comparison) (a b : Body) : Prop where
  text : C.Related Eq a.text b.text
  values : C.Related C.Val a.values b.values

/-- Calls of one tag in one place with the same parameters, whose bodies compare. -/
structure Calls (C : Comparison) (a b : Call) : Prop where
  name : a.name = b.name
  source : a.source = b.source
  parameters : a.parameters = b.parameters
  body : Option.Rel C.Bodies a.body b.body

/-- Handlers that do alike on calls that compare. -/
def Handlers (C : Comparison) (h h' : Handler) : Prop :=
  ∀ a b, C.Calls a b → C.Related C.Val (h a) (h' b)

/-- Registries of the same names with handlers that compare. -/
def Registries (C : Comparison) (tags tags' : Registry) : Prop :=
  ∀ name, Option.Rel C.Handlers (tags.find? name) (tags'.find? name)

/-- Host actions that do alike on data that compare. -/
def Hosts (C : Comparison) (action action' : HostAction) : Prop :=
  C.Related C.Val (ExceptT.mk fun data => .done (action data))
    (ExceptT.mk fun data => .done (action' data))

/-- When data compare with themselves only, so do host actions. -/
theorem hosts_self (self : ∀ x y, C.Data x y ↔ x = y) (action : HostAction) :
    C.Hosts action action := by
  intro x y data
  obtain rfl := (self x y).mp data
  change C.Rel _ (.of ((action x).1.map (·, (action x).2))) (.of ((action x).1.map (·, _)))
  cases (action x).1 with
  | ok value => exact C.ok ⟨C.refl _, (self _ _).mpr rfl⟩
  | error why => exact C.error why

/-- Scopes with tags that compare, whose embedded templates compare. -/
structure Scopes (C : Comparison) (a b : Scope) : Prop where
  tags : C.Registries a.tags b.tags
  embedding : ∀ source path,
    C.Related Eq (a.embedding.render source path) (b.embedding.render source path)

end Comparison

/-- Embedding compares where the embedded templates do. -/
theorem Scope.embed_related {a b : Scope} (embedding : ∀ source path,
      C.Related Eq (a.embedding.render source path) (b.embedding.render source path))
    (source : Source) {path path' : Evaluation Value} (paths : C.Related C.Val path path') :
    C.Related C.Val (a.embed source path) (b.embed source path') := by
  rw [embed_eq, embed_eq]
  apply (resolved_related paths).bind
  rintro value _ rfl
  cases value.asString with
  | none => exact .throw _
  | some text =>
    apply (embedding source text).bind
    rintro text _ rfl
    exact .pure (C.refl _)

namespace Comparison.Scopes

variable {a b : Scope}

/-- Calls of one name compare where their parameters and bodies do. -/
theorem call (same : C.Scopes a b) (source : Source) (name : String)
    {parameters parameters' : Evaluation (List Value)} {body body' : Option Body}
    (given : C.Related Eq parameters parameters') (bodies : Option.Rel C.Bodies body body') :
    C.Related C.Val (a.call source name parameters body)
      (b.call source name parameters' body') := by
  unfold Scope.call
  have handlers := same.tags name
  generalize a.tags.find? name = found at handlers ⊢
  generalize b.tags.find? name = found' at handlers ⊢
  cases handlers with
  | none => exact .throw _
  | some handlers =>
    apply given.bind
    rintro parameters _ rfl
    exact handlers _ _ ⟨rfl, rfl, rfl, bodies⟩

end Comparison.Scopes

/-! ## Nodes -/

namespace Scope

mutual

/-- Scopes that compare evaluate a node alike. -/
theorem render_related {a b : Scope} (same : C.Scopes a b) {node node' : Node}
    (like : Node.Like C.Hosts node node') :
    C.Related C.Val (a.render node) (b.render node') := by
  match like with
  | .raw _ data =>
    unfold render
    exact .pure (C.refl _)
  | .literal _ constant =>
    unfold render
    exact .pure (C.refl _)
  | .interpolated _ nodes =>
    unfold render
    apply (finished_related nodes (renderAll_related same nodes)).bind
    rintro text _ rfl
    exact .pure (C.refl _)
  | .identifier _ path =>
    unfold render
    exact Related.data.bind fun _ _ data => .pure (C.get data path)
  | .infixOp _ op left right =>
    unfold render
    apply (resolved_related (render_related same left)).bind
    rintro x _ rfl
    apply (resolved_related (render_related same right)).bind
    rintro y _ rfl
    exact .pure (C.refl _)
  | .negation _ operand =>
    unfold render
    apply (resolved_related (render_related same operand)).bind
    rintro value _ rfl
    exact .pure (C.refl _)
  | .conditional _ condition body others =>
    unfold render
    apply (resolved_related (render_related same condition)).bind
    rintro value _ rfl
    split
    · exact forked_related (renderAll_related same body)
    · exact renderBranches_related same others
  | .loop source key data body =>
    unfold render
    exact iterated_related source (render_related same key) (render_related same data)
      (renderAll_related same body)
  | .embed source path =>
    unfold render
    exact embed_related same.embedding source (render_related same path)
  | .tag source name parameters =>
    unfold render
    exact same.call source name (renderResolved_related same parameters) .none
  | .tagWithBody source name parameters body =>
    unfold render
    have values := renderAll_related same body
    exact same.call source name (renderResolved_related same parameters)
      (.some ⟨finished_related body values, values_related values⟩)
  | .host _ _ action =>
    unfold render
    exact action

/-- Like nodes evaluate alike in scopes that compare. -/
theorem renderAll_related {a b : Scope} (same : C.Scopes a b) {nodes nodes' : List Node}
    (like : Node.LikeAll C.Hosts nodes nodes') :
    C.Related (List.Forall₂ C.Val) (a.renderAll nodes) (b.renderAll nodes') := by
  match like with
  | .nil =>
    unfold renderAll
    exact .pure .nil
  | .cons node rest =>
    unfold renderAll
    apply (render_related same node).bind
    intro v w first
    exact (renderAll_related same rest).bind fun _ _ others => .pure (.cons first others)

theorem renderResolved_related {a b : Scope} (same : C.Scopes a b) {nodes nodes' : List Node}
    (like : Node.LikeAll C.Hosts nodes nodes') :
    C.Related Eq (a.renderResolved nodes) (b.renderResolved nodes') := by
  match like with
  | .nil =>
    unfold renderResolved
    exact .pure rfl
  | .cons node rest =>
    unfold renderResolved
    apply (resolved_related (render_related same node)).bind
    rintro v _ rfl
    apply (renderResolved_related same rest).bind
    rintro vs _ rfl
    exact .pure rfl

theorem renderBranches_related {a b : Scope} (same : C.Scopes a b)
    {branches branches' : List (Node × List Node)}
    (like : Node.LikeBranches C.Hosts branches branches') :
    C.Related C.Val (a.renderBranches branches) (b.renderBranches branches') := by
  match like with
  | .nil =>
    unfold renderBranches
    exact .pure (C.refl _)
  | .cons condition body rest =>
    unfold renderBranches
    apply (resolved_related (render_related same condition)).bind
    rintro value _ rfl
    split
    · exact forked_related (renderAll_related same body)
    · exact renderBranches_related same rest

end

/-- Scopes that compare give nodes the same text. -/
theorem serialize_related {a b : Scope} (same : C.Scopes a b) {nodes nodes' : List Node}
    (like : Node.LikeAll C.Hosts nodes nodes') :
    C.Related Eq (a.serialize nodes) (b.serialize nodes') :=
  finished_related like (renderAll_related same like)

end Scope

end Stencil
