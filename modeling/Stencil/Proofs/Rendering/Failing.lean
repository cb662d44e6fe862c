import Stencil.Proofs.Evaluation
import Stencil.Proofs.Parts
import Stencil.Proofs.Rendering.Scopes
import Stencil.Proofs.Value.Failures

/-! # How templates fail

An error of a render is raised by the library at a node, comes out of a tag or of an embedded
template, or was deferred in the data. So when errors of all these kinds are as stated, every error
is, whatever the template, the data and whatever others do to the store. The induction over the
syntax is done here, once for every statement about errors. Some errors of the library are about
values that have no text; whether there are any is told by the values that the nodes evaluate to.
-/

namespace Stencil

open Routine (Assured Joined)

variable {I : Store → Prop} {E : Error → Prop} {α β : Type} {P : α → Prop} {Q : β → Prop}

/-- A value is as stated, and an error is. -/
def Held (E : Error → Prop) (P : α → Prop) : Except Error α → Prop
  | .ok a => P a
  | .error why => E why

/-- Every error that points at the source is as stated. -/
def Source.Admits (E : Error → Prop) (source : Source) : Prop :=
  ∀ why : Error, why.source? = some source → E why

/-- The error is that a value of a node has no text: it holds bytes that are no text, or a map, or
something that is deferred. -/
def Error.textless : Error → Bool
  | .serialize .bytes _ | .serialize .map _ | .serialize .unresolved _ => true
  | _ => false

namespace Evaluation

/-- On data in which things fail as stated, the evaluation fails as stated, its values are as
stated, and so is what fails in the data it leaves. -/
def Confined (I : Store → Prop) (E : Error → Prop) (P : α → Prop) (e : Evaluation α) : Prop :=
  ∀ data : Value, data.Defers E →
    Assured I (fun ended => Held E P ended.1 ∧ ended.2.Defers E) (e.runOn data)

namespace Confined

theorem pure {a : α} (holds : P a) : Confined I E P (Pure.pure a) :=
  fun _ kept => .done ⟨holds, kept⟩

theorem throw {why : Error} (fails : E why) :
    Confined I E P (MonadExcept.throw why : Evaluation α) := fun _ kept => .done ⟨fails, kept⟩

/-- What may fail in the first evaluation or the next may fail in both. -/
theorem bind {e : Evaluation α} {f : α → Evaluation β} (first : Confined I E P e)
    (next : ∀ a, P a → Confined I E Q (f a)) : Confined I E Q (e >>= f) := by
  intro data kept
  rw [runOn_bind]
  refine (first data kept).bind ?_
  rintro ⟨result, after⟩ ⟨held, kept⟩
  cases result with
  | error why => exact .done ⟨held, kept⟩
  | ok a => exact next a held after kept

theorem imp {P' : α → Prop} {e : Evaluation α} (confined : Confined I E P e)
    (weaker : ∀ a, P a → P' a) : Confined I E P' e := by
  intro data kept
  refine (confined data kept).mono ?_
  rintro ⟨result, left⟩ ⟨held, defers⟩
  refine ⟨?_, defers⟩
  cases result with
  | error why => exact held
  | ok a => exact weaker a held

theorem data : Confined I E (Value.Defers E) Evaluation.data := fun _ kept => .done ⟨kept, kept⟩

theorem set {data : Value} (kept : data.Defers E) :
    Confined I E (fun _ => True) (MonadStateOf.set data : Evaluation PUnit) :=
  fun _ _ => .done ⟨trivial, kept⟩

theorem ofAttempt {attempt : Attempt α} (assured : Assured I (Held E P) attempt) :
    Confined I E P (Evaluation.ofAttempt attempt) :=
  fun _ kept => assured.bind fun _ held => .done ⟨held, kept⟩

theorem store {f : Store → α × Store} (holds : ∀ s, I s → P (f s).1)
    (keeps : ∀ s, I s → I (f s).2) : Confined I E P (Evaluation.store f) :=
  ofAttempt ((Assured.step holds keeps).bind fun _ held => .done held)

theorem attemptOn {e : Evaluation α} (confined : Confined I E P e) {data : Value}
    (kept : data.Defers E) : Assured I (Held E P) (e.attemptOn data) :=
  (confined data kept).bind fun _ ended => .done ended.1

theorem isolated {e : Evaluation α} (confined : Confined I E P e)
    {bindings : List (String × Value)} (bound : ∀ binding ∈ bindings, binding.2.Defers E) :
    Confined I E P (Evaluation.isolated (·.derive bindings) e) :=
  fun _ kept => (confined.attemptOn (kept.derive bound)).bind fun _ held => .done ⟨held, kept⟩

/-- What an evaluation ensures of its values can be used besides. -/
theorem ensuring {Q : α → Prop} {e : Evaluation α} (confined : Confined I E P e)
    (ensured : e.Ensures Q) : Confined I E (fun a => P a ∧ Q a) e := by
  intro data kept
  refine ((confined data kept).and (confined data kept).outcome).mono ?_
  rintro ⟨result, left⟩ ⟨⟨held, defers⟩, possible⟩
  refine ⟨?_, defers⟩
  cases result with
  | error why => exact held
  | ok a => exact ⟨held, ensured data a left possible.free⟩

end Confined

end Evaluation

open Evaluation (Confined)

/-! ## Parts of a node -/

/-- When all siblings are held, so are they together. -/
theorem joinAll_held {group : List (Attempt α)}
    (each : ∀ attempt ∈ group, Assured I (Held E P) attempt) :
    Assured I (Held E (∀ a ∈ ·, P a)) (Routine.joinAll group) := by
  have kinds : List.Forall₂ (Assured I) (group.map fun _ => Held E P) group := by
    rw [List.forall₂_map_left_iff, List.forall₂_same]
    exact each
  refine (Assured.joinAll kinds).mono fun result joined => ?_
  cases result with
  | ok values =>
    intro value member
    obtain ⟨_, _, holds⟩ := joined.of_mem member
    exact holds
  | error why =>
    obtain ⟨_, _, fails⟩ := joined.of_error
    exact fails

/-- A node whose value has no text is the one that is reported. -/
theorem flattenNodes_error {nodes : List Node} {values : List Value} {why : Error}
    (failed : flattenNodes nodes values = .error why) :
    ∃ node ∈ nodes, why.source? = some node.source := by
  induction nodes generalizing values with
  | nil => cases failed
  | cons node rest ih =>
    cases values with
    | nil => cases failed
    | cons value values =>
      unfold flattenNodes at failed
      cases flat : value.flatten with
      | error fault =>
        rw [flat] at failed
        cases failed
        exact ⟨node, List.mem_cons_self, rfl⟩
      | ok text =>
        rw [flat] at failed
        cases further : flattenNodes rest values with
        | error reason =>
          rw [further] at failed
          cases failed
          obtain ⟨other, member, points⟩ := ih further
          exact ⟨other, List.mem_cons_of_mem _ member, points⟩
        | ok others =>
          rw [further] at failed
          cases failed

/-- Once the values are computed the nodes have a text, or have none as stated. -/
def Tells (E : Error → Prop) (nodes : List Node) (values : List Value) : Prop :=
  ∀ computed, Value.computedItems? values = some computed → ∀ why,
    flattenNodes nodes computed = .error why → E why

/-- The error of nodes without a text points at one of them. -/
theorem ensures_tells {nodes : List Node} (admitted : ∀ node ∈ nodes, node.source.Admits E)
    (values : Evaluation (List Value)) : values.Ensures (Tells E nodes) := by
  refine (Evaluation.Ensures.any values).imp fun values _ computed _ why failed => ?_
  obtain ⟨node, member, points⟩ := flattenNodes_error failed
  exact admitted node member why points

section

variable (lasting : Store.Lasting I)
include lasting

/-- Resolving a value fails as what is deferred in it does. -/
theorem resolve_held {value : Value} (defers : value.Defers E) :
    Assured I (Held E (Value.Defers E)) value.resolve := by
  refine (Value.resolve_resolvesTo lasting value).mono fun result settled => ?_
  cases result with
  | ok w => exact settled.mono fun _ => False.elim
  | error why => exact defers why settled

theorem resolveItems_held {values : List Value} (defers : ∀ value ∈ values, value.Defers E) :
    ∀ attempt ∈ Value.resolveItems values, Assured I (Held E (Value.Defers E)) attempt := by
  induction values with
  | nil => exact nofun
  | cons value rest ih =>
    obtain ⟨first, others⟩ := List.forall_mem_cons.mp defers
    exact List.forall_mem_cons.mpr ⟨resolve_held lasting first, ih others⟩

theorem resolved_confined {value : Evaluation Value}
    (confined : Confined I E (Value.Defers E) value) :
    Confined I E (Value.Defers E) (resolved value) :=
  confined.bind fun _ defers => .ofAttempt (resolve_held lasting defers)

/-- The text of nodes fails as its nodes and values do. -/
theorem finished_confined {nodes : List Node} {values : Evaluation (List Value)}
    (tells : values.Ensures (Tells E nodes))
    (confined : Confined I E (∀ value ∈ ·, Value.Defers E value) values) :
    Confined I E (fun _ => True) (finished nodes values) := by
  refine (confined.ensuring tells).bind ?_
  rintro values ⟨defers, tells⟩
  have settled := (joinAll_held (resolveItems_held lasting defers)).and
    (Value.joinAll_resolveItems_assured lasting values)
  have computed : Confined I E (fun computed => Value.computedItems? values = some computed)
      (Evaluation.ofAttempt (Routine.joinAll (Value.resolveItems values))) := by
    refine .ofAttempt (settled.mono ?_)
    rintro (why | computed) ⟨held, same⟩
    · exact held
    · exact same.symm
  refine computed.bind fun computed same => .ofAttempt (.done ?_)
  cases flat : flattenNodes nodes computed with
  | ok text => trivial
  | error why => exact tells computed same why flat

end

theorem array_confined {values : Evaluation (List Value)}
    (confined : Confined I E (∀ value ∈ ·, Value.Defers E value) values) :
    Confined I E (Value.Defers E) (return .array (← values)) :=
  confined.bind fun _ each => .pure (Value.defers_array.mpr each)

theorem forked_confined {body : Evaluation (List Value)}
    (confined : Confined I E (∀ value ∈ ·, Value.Defers E value) body) :
    Confined I E (Value.Defers E) (forked body) := (array_confined confined).isolated nofun

theorem loopBindings_defers {item : Value} (defers : item.Defers E) (key : String)
    (count place : Nat) : ∀ binding ∈ loopBindings key count place item, binding.2.Defers E := by
  unfold loopBindings
  simp only [List.forall_mem_cons, List.not_mem_nil, false_implies, implies_true, and_true]
  exact ⟨defers, Value.defers_of_whole rfl, Value.defers_of_whole rfl, Value.defers_of_whole rfl⟩

/-- The bodies of a loop fail as one body does. -/
theorem forItems_confined {key : String} {items : List Value} {body : Evaluation (List Value)}
    (defers : ∀ item ∈ items, item.Defers E)
    (confined : Confined I E (∀ value ∈ ·, Value.Defers E value) body) :
    Confined I E (Value.Defers E) (forItems key items body) := by
  refine Confined.data.bind fun data kept => ?_
  refine (Confined.ofAttempt (joinAll_held (P := (∀ value ∈ ·, Value.Defers E value)) ?_)).bind
    fun values each => ?_
  · intro attempt member
    obtain ⟨place, within, rfl⟩ := List.mem_mapIdx.mp member
    have item := defers _ (List.getElem_mem within)
    exact confined.attemptOn (kept.derive (loopBindings_defers item _ _ _))
  · refine .pure (Value.defers_array.mpr fun value member => ?_)
    obtain ⟨items, among, rfl⟩ := List.mem_map.mp member
    exact Value.defers_array.mpr (each items among)

theorem iterated_confined (lasting : Store.Lasting I) {source : Source}
    (raises : ∀ why : Error, why.source? = some source → why.textless = false → E why)
    {key data : Evaluation Value} {body : Evaluation (List Value)}
    (keys : Confined I E (Value.Defers E) key) (ranged : Confined I E (Value.Defers E) data)
    (confined : Confined I E (∀ value ∈ ·, Value.Defers E value) body) :
    Confined I E (Value.Defers E) (iterated source key data body) := by
  unfold iterated
  refine (resolved_confined lasting keys).bind fun name _ => ?_
  split
  · exact .throw (raises _ rfl rfl)
  · refine (resolved_confined lasting ranged).bind fun found defers => ?_
    split
    · exact .pure Value.defers_null
    · exact forItems_confined (Value.defers_array.mp defers) confined
    · exact .throw (raises _ rfl rfl)

theorem getD_defers (found : Option α) {make : α → Value} (each : ∀ a, (make a).Defers E) :
    ((found.map make).getD .null).Defers E := by
  cases found with
  | none => exact Value.defers_null
  | some a => exact each a

/-- Operators defer nothing. -/
theorem apply_defers (op : InfixOp) (a b : Value) : (op.apply a b).Defers E := by
  have arithmetic : (op.arithmetic a b).Defers E := by
    unfold InfixOp.arithmetic
    split
    · exact getD_defers _ fun _ => Value.defers_of_whole rfl
    · split
      · exact getD_defers _ fun _ => Value.defers_of_whole rfl
      · exact Value.defers_null
  cases op with
  | equal | notEqual | and | or => exact Value.defers_of_whole rfl
  | less | greater | lessOrEqual | greaterOrEqual =>
    exact getD_defers _ fun _ => Value.defers_of_whole rfl
  | add | subtract | multiply | divide | modulo => exact arithmetic

/-! ## Names and lists of nodes -/

namespace Scope

variable {scope : Scope} {nodes : List Node}

theorem identifier_confined (source : Source) (path : Path) :
    Confined I E (Value.Defers E) (scope.render (.identifier source path)) := by
  unfold render
  exact Confined.data.bind fun _ kept => .pure (kept.get path)

theorem renderAll_confined
    (each : ∀ node ∈ nodes, Confined I E (Value.Defers E) (scope.render node)) :
    Confined I E (∀ value ∈ ·, Value.Defers E value) (scope.renderAll nodes) := by
  induction nodes with
  | nil =>
    unfold renderAll
    exact .pure nofun
  | cons node rest ih =>
    obtain ⟨first, others⟩ := List.forall_mem_cons.mp each
    unfold renderAll
    exact first.bind fun value defers => (ih others).bind fun values each =>
      .pure (List.forall_mem_cons.mpr ⟨defers, each⟩)

/-- Parameters fail as one of them does, and there is a value for each. -/
theorem renderResolved_confined (lasting : Store.Lasting I)
    (each : ∀ node ∈ nodes, Confined I E (Value.Defers E) (scope.render node)) :
    Confined I E (fun values => values.length = nodes.length ∧ ∀ value ∈ values, value.Defers E)
      (scope.renderResolved nodes) := by
  induction nodes with
  | nil =>
    unfold renderResolved
    exact .pure ⟨rfl, nofun⟩
  | cons node rest ih =>
    obtain ⟨first, others⟩ := List.forall_mem_cons.mp each
    unfold renderResolved
    refine (resolved_confined lasting first).bind fun value defers => (ih others).bind ?_
    rintro values ⟨fits, each⟩
    exact .pure ⟨congrArg (· + 1) fits, List.forall_mem_cons.mpr ⟨defers, each⟩⟩

theorem renderBranches_confined (lasting : Store.Lasting I) {branches : List (Node × List Node)}
    (each : ∀ branch ∈ branches, Confined I E (Value.Defers E) (scope.render branch.1) ∧
      Confined I E (∀ value ∈ ·, Value.Defers E value) (scope.renderAll branch.2)) :
    Confined I E (Value.Defers E) (scope.renderBranches branches) := by
  induction branches with
  | nil =>
    unfold renderBranches
    exact .pure Value.defers_null
  | cons branch rest ih =>
    obtain ⟨⟨condition, block⟩, others⟩ := List.forall_mem_cons.mp each
    unfold renderBranches
    refine (resolved_confined lasting condition).bind fun value _ => ?_
    split
    · exact forked_confined block
    · exact ih others

end Scope

/-! ## Scopes -/

/-- A body whose two renderings fail as stated. -/
structure Body.Fair (I : Store → Prop) (E : Error → Prop) (body : Body) : Prop where
  text : Confined I E (fun _ => True) body.text
  values : Confined I E (Value.Defers E) body.values

/-- A call at a source where errors are as stated, with parameters and a body that fail so. -/
structure Call.Fair (I : Store → Prop) (E : Error → Prop) (call : Call) : Prop where
  source : call.source.Admits E
  parameters : ∀ value ∈ call.parameters, value.Defers E
  body : ∀ body ∈ call.body, body.Fair I E

/-- A handler that fails as stated on every call where that is so of the call. -/
def Handler.Fair (I : Store → Prop) (E : Error → Prop) (handler : Handler) : Prop :=
  ∀ call : Call, call.Fair I E → Confined I E (Value.Defers E) (handler call)

/-- Tags whose handlers are all fair. -/
def Registry.Fair (I : Store → Prop) (E : Error → Prop) (tags : Registry) : Prop :=
  ∀ name handler, tags.find? name = some handler → handler.Fair I E

/-- A scope with fair handlers, in which embedding fails as stated where errors are. -/
structure Scope.Fair (I : Store → Prop) (E : Error → Prop) (scope : Scope) : Prop where
  tags : scope.tags.Fair I E
  embedding : ∀ (source : Source) (path : String), source.Admits E →
    Confined I E (fun _ => True) (scope.embedding.render source path)

/-- A node at whose source errors are as stated, and which the host has not made. -/
structure Node.Pointed (E : Error → Prop) (node : Node) : Prop where
  source : node.source.Admits E
  notHost : ∀ source number action, node ≠ .host source number action

/-! ## Scopes at some sources -/

/-- Tags with which rendering fails as stated at some sources: this is so of the errors that the
library raises there, but for those on values without a text, and of what the tags fail with. -/
structure Registry.Sound (I : Store → Prop) (A : Source → Prop) (E : Error → Prop)
    (tags : Registry) : Prop where
  raises : ∀ (source : Source) (why : Error), A source → why.source? = some source →
    why.textless = false → E why
  handlers : ∀ name handler, tags.find? name = some handler → ∀ call : Call, A call.source →
    (∀ value ∈ call.parameters, value.Defers E) → (∀ body ∈ call.body, body.Fair I E) →
    Confined I E (Value.Defers E) (handler call)

/-- A scope in which rendering fails as stated at some sources, and so do embedded templates. -/
structure Scope.Sound (I : Store → Prop) (A : Source → Prop) (E : Error → Prop) (scope : Scope) :
    Prop where
  tags : scope.tags.Sound I A E
  embedding : ∀ (source : Source) (path : String), A source →
    Confined I E (fun _ => True) (scope.embedding.render source path)

/-- A node at one of the sources that the host has not made. The nodes in it that are rendered like
templates have a text, or have none as stated. -/
structure Node.Sound (A : Source → Prop) (E : Error → Prop) (scope : Scope) (node : Node) :
    Prop where
  source : A node.source
  notHost : ∀ source number action, node ≠ .host source number action
  tells : ∀ block ∈ node.blocks, (scope.renderAll block).Ensures (Tells E block)

/-- Tags that are fair are sound. -/
theorem Registry.Fair.sound {tags : Registry} (fair : tags.Fair I E) :
    tags.Sound I (Source.Admits E) E where
  raises _ why admitted points _ := admitted why points
  handlers name handler found call admitted given bodies :=
    fair name handler found call ⟨admitted, given, bodies⟩

theorem Scope.Fair.sound {scope : Scope} (fair : scope.Fair I E) :
    scope.Sound I (Source.Admits E) E where
  tags := Registry.Fair.sound fair.tags
  embedding := fair.embedding

/-- A node whose sources are admitted is sound. -/
theorem Node.Pointed.sound {scope : Scope} {node : Node} (pointed : node.Everywhere (Pointed E)) :
    node.Everywhere (Node.Sound (Source.Admits E) E scope) := by
  refine pointed.spread fun part pointed => ⟨pointed.self.source, pointed.self.notHost, ?_⟩
  refine fun block among => ensures_tells (fun inner member => ?_) _
  exact (pointed.inside (Node.child_of_block among member)).self.source

namespace Scope.Sound

variable {A : Source → Prop} {scope : Scope}

theorem embed (sound : scope.Sound I A E) (lasting : Store.Lasting I) {source : Source}
    (admitted : A source) {path : Evaluation Value} (paths : Confined I E (Value.Defers E) path) :
    Confined I E (Value.Defers E) (scope.embed source path) := by
  rw [embed_eq]
  refine (resolved_confined lasting paths).bind fun value _ => ?_
  split
  · exact .throw (sound.tags.raises source _ admitted rfl rfl)
  · exact (sound.embedding source _ admitted).bind fun text _ => .pure (Value.defers_of_whole rfl)

/-- A call fails as its parameters, its body and its handler do. -/
theorem call (sound : scope.Sound I A E) {source : Source} (admitted : A source) (name : String)
    {parameters : Evaluation (List Value)} {body : Option Body}
    (given : Confined I E (∀ value ∈ ·, Value.Defers E value) parameters)
    (bodies : ∀ block ∈ body, block.Fair I E) :
    Confined I E (Value.Defers E) (scope.call source name parameters body) := by
  unfold Scope.call
  split
  · exact .throw (sound.tags.raises source _ admitted rfl rfl)
  · rename_i handler found
    exact given.bind fun values defers =>
      sound.tags.handlers name handler found _ admitted defers bodies

/-- A node evaluates to what fails as stated, or fails so itself, when that is so in the scope and
of the node with everything in it. -/
theorem render (sound : scope.Sound I A E) (lasting : Store.Lasting I) {node : Node}
    (all : node.Everywhere (Node.Sound A E scope)) :
    Confined I E (Value.Defers E) (scope.render node) := by
  induction node using Node.child_induction with
  | step node ih =>
    have child {inner : Node} (inside : node.Child inner) :
        Confined I E (Value.Defers E) (scope.render inner) := ih inner inside (all.inside inside)
    have texts {block : List Node} (among : block ∈ node.blocks) :
        Confined I E (∀ value ∈ ·, Value.Defers E value) (scope.renderAll block) :=
      renderAll_confined fun inner member => child (Node.child_of_block among member)
    cases node with
    | raw source data =>
      unfold Scope.render
      exact .pure (Value.defers_of_whole rfl)
    | literal source constant =>
      unfold Scope.render
      refine .pure (Value.defers_of_whole ?_)
      cases constant <;> rfl
    | interpolated source nodes =>
      have only := List.mem_singleton_self nodes
      unfold Scope.render
      exact (finished_confined lasting (all.self.tells nodes only) (texts only)).bind
        fun text _ => .pure (Value.defers_of_whole rfl)
    | identifier source path => exact identifier_confined source path
    | infixOp source op left right =>
      unfold Scope.render
      refine (resolved_confined lasting (child (.left _ _ _ _))).bind fun a _ => ?_
      refine (resolved_confined lasting (child (.right _ _ _ _))).bind fun b _ => ?_
      exact .pure (apply_defers op a b)
    | negation source operand =>
      unfold Scope.render
      exact (resolved_confined lasting (child (.operand _ _))).bind
        fun _ _ => .pure (Value.defers_of_whole rfl)
    | conditional source condition body others =>
      unfold Scope.render
      refine (resolved_confined lasting (child (.condition _ _ _ _))).bind fun value _ => ?_
      split
      · exact forked_confined (texts List.mem_cons_self)
      · exact renderBranches_confined lasting fun branch among =>
          ⟨child (.otherCondition among),
            texts (List.mem_cons_of_mem _ (List.mem_map_of_mem among))⟩
    | loop source key data body =>
      unfold Scope.render
      exact iterated_confined lasting
        (fun why points textless => sound.tags.raises source why all.self.source points textless)
        (child (.loopKey _ _ _ _)) (child (.loopData _ _ _ _)) (texts (List.mem_singleton_self _))
    | embed source path =>
      unfold Scope.render
      exact sound.embed lasting all.self.source (child (.embedPath _ _))
    | tag source name parameters body =>
      have given : Confined I E (∀ value ∈ ·, Value.Defers E value)
          (scope.renderResolved parameters) := by
        refine (renderResolved_confined lasting fun node member => ?_).imp fun _ holds => holds.2
        exact child (.parameter member)
      cases body with
      | none =>
        unfold Scope.render
        exact sound.call all.self.source name given nofun
      | some body =>
        have only := List.mem_singleton_self body
        unfold Scope.render
        refine sound.call all.self.source name given ?_
        rintro _ ⟨⟩
        exact ⟨finished_confined lasting (all.self.tells body only) (texts only),
          array_confined (texts only)⟩
    | host source number action => exact absurd rfl (all.self.notHost source number action)

/-- The text of nodes fails as stated when that is so of their values. -/
theorem serialize (sound : scope.Sound I A E) (lasting : Store.Lasting I) {nodes : List Node}
    (all : ∀ node ∈ nodes, node.Everywhere (Node.Sound A E scope))
    (tells : (scope.renderAll nodes).Ensures (Tells E nodes)) :
    Confined I E (fun _ => True) (scope.serialize nodes) :=
  finished_confined lasting tells
    (renderAll_confined fun node member => sound.render lasting (all node member))

end Scope.Sound

/-- The text of nodes fails as stated where errors point at them. -/
theorem Scope.serialize_confined {scope : Scope} (lasting : Store.Lasting I)
    (fair : scope.Fair I E) {nodes : List Node}
    (pointed : ∀ node ∈ nodes, node.Everywhere (Node.Pointed E)) :
    Confined I E (fun _ => True) (scope.serialize nodes) :=
  fair.sound.serialize lasting (fun node member => Node.Pointed.sound (pointed node member))
    (ensures_tells (fun node member => (pointed node member).self.source) _)

end Stencil
