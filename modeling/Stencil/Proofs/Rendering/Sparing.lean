import Stencil.Proofs.Evaluation
import Stencil.Proofs.Tags.Fair
import Stencil.Proofs.Value.Keys
import Stencil.Render

/-! # What leaves an entry of the data alone

Data are changed by tags, by host nodes and by embedded templates, and by nothing else; the bodies
of conditionals and loops change data of their own. Of the tags there are, only the one that
assigns writes, along a path. So an entry of the data is left alone by every node in which, outside
of such bodies, no path that is written begins with its name.
-/

namespace Stencil

open Routine (Assured Outcome)

variable {α β : Type} {name : String}

namespace Value

variable {data written : Value}

/-- The value under a name; data that are no map have none. -/
def field? (data : Value) (name : String) : Option Value := (data.asMap.getD []).lookup name

/-- Bindings are found in the data of a body, the last one first, and behind them what is around. -/
theorem field?_derive (data : Value) (bindings : List (String × Value)) (name : String) :
    (data.derive bindings).field? name =
      (bindings.reverse.lookup name).or (data.field? name) := by
  rw [field?, derive, asMap, Option.getD_some, Entries.lookup_insertAll, List.lookup_append]
  rfl

/-- A write along a path that begins with another name leaves the entry alone. -/
theorem field?_put {segment : Segment} (other : segment.name ≠ name) (rest : List Segment) :
    (data.put (segment :: rest) written).field? name = data.field? name := by
  have inside (change : Value → Value) (entries : List (String × Value)) :
      ((map entries).changeChild segment change).field? name = entries.lookup name :=
    Entries.lookup_update_ne change entries (Ne.symm other)
  have array (change : Value → Value) (items : List Value) :
      ((array items).changeChild segment change).field? name = none := by
    rw [changeChild]
    split <;> rfl
  rw [put]
  cases data with
  | map entries => exact inside _ entries
  | array items =>
    cases segment with
    | index place => exact array _ items
    | key text =>
      rw [forced]
      split
      · exact array _ items
      · exact inside _ []
  | _ =>
    cases segment with
    | index place => exact array _ []
    | key text => exact inside _ []

end Value

/-- The path leads somewhere, but not through the name. -/
def Path.Avoids (name : String) (path : Path) : Prop :=
  ∃ segment rest, path.segments = segment :: rest ∧ segment.name ≠ name

/-- A write at a path that avoids a name leaves the value under it. -/
theorem Value.field?_trySet {data written changed : Value} {path : Path}
    (avoids : path.Avoids name)
    (success : data.trySet path written = .ok changed) :
    changed.field? name = data.field? name := by
  obtain ⟨segment, rest, whole, other⟩ := avoids
  unfold trySet at success
  rw [whole] at success
  split at success
  · cases success
  · cases success
    exact field?_put other rest

/-! ## Evaluations -/

namespace Evaluation

/-- However the evaluation ends, the entry under the name is what it was. -/
def Spares (name : String) (e : Evaluation α) : Prop :=
  ∀ data result after, Outcome (fun _ => True) (e.runOn data) (result, after) →
    after.field? name = data.field? name

namespace Spares

theorem pure (a : α) : Spares name (Pure.pure a) := by
  intro data result after possible
  cases Routine.outcome_done possible
  rfl

theorem throw (why : Error) : Spares name (MonadExcept.throw why : Evaluation α) := by
  intro data result after possible
  cases Routine.outcome_done possible
  rfl

theorem bind_ensured {e : Evaluation α} {f : α → Evaluation β} {P : α → Prop}
    (first : Spares name e) (ensured : e.Ensures P) (next : ∀ a, P a → Spares name (f a)) :
    Spares name (e >>= f) := by
  intro data result after possible
  rw [runOn_bind] at possible
  obtain ⟨⟨ended, middle⟩, start, rest⟩ := (Assured.free _).outcome_bind possible
  have kept := first data ended middle start
  cases ended with
  | ok a => exact (next a (ensured data a middle start) middle result after rest).trans kept
  | error why =>
    cases Routine.outcome_done rest
    exact kept

/-- Evaluations that spare a name do so one after the other. -/
theorem bind {e : Evaluation α} {f : α → Evaluation β} (first : Spares name e)
    (next : ∀ a, Spares name (f a)) : Spares name (e >>= f) :=
  first.bind_ensured (.any e) fun a _ => next a

theorem ofAttempt (attempt : Attempt α) : Spares name (Evaluation.ofAttempt attempt) := by
  intro data result after possible
  rw [runOn_ofAttempt] at possible
  obtain ⟨ended, _, rest⟩ := (Assured.free _).outcome_bind possible
  cases Routine.outcome_done rest
  rfl

theorem data : Spares name Evaluation.data := by
  intro data result after possible
  cases Routine.outcome_done possible
  rfl

/-- What runs on data of its own writes nothing around. -/
theorem isolated (e : Evaluation α) (change : Value → Value) :
    Spares name (Evaluation.isolated change e) := by
  intro data result after possible
  obtain ⟨ended, _, rest⟩ := (Assured.free _).outcome_bind possible
  cases Routine.outcome_done rest
  rfl

theorem resolved {e : Evaluation Value} (spares : Spares name e) :
    Spares name (Stencil.resolved e) := spares.bind fun _ => .ofAttempt _

theorem finished {nodes : List Node} {e : Evaluation (List Value)} (spares : Spares name e) :
    Spares name (Stencil.finished nodes e) :=
  spares.bind fun _ => (Spares.ofAttempt _).bind fun _ => .ofAttempt _

/-- A loop spares every name, whatever its bodies write. -/
theorem forItems (key : String) (items : List Value) (body : Evaluation (List Value)) :
    Spares name (Stencil.forItems key items body) :=
  Spares.data.bind fun _ => (Spares.ofAttempt _).bind fun _ => .pure _

end Spares

end Evaluation

open Evaluation (Spares Ensures)

/-! ## Tags -/

/-- A call leaves the entry alone when its body does. -/
structure Body.Spares (name : String) (body : Body) : Prop where
  text : body.text.Spares name
  values : body.values.Spares name

def Handler.Spares (name : String) (handler : Handler) : Prop :=
  ∀ call : Call, (∀ body ∈ call.body, body.Spares name) → (handler call).Spares name

namespace Call

variable (call : Call)

theorem spares_reject (fault : TagFault) : (call.reject fault : Evaluation α).Spares name :=
  .throw _

theorem spares_requireCount (expected : Nat) : (call.requireCount expected).Spares name := by
  unfold requireCount
  split
  · exact .pure _
  · exact call.spares_reject _

theorem spares_requireNoBody : call.requireNoBody.Spares name := by
  unfold requireNoBody
  split
  · exact call.spares_reject _
  · exact .pure _

theorem spares_bodyText {call : Call} (bodies : ∀ body ∈ call.body, body.Spares name) :
    call.bodyText.Spares name := by
  have spares : call.requireBody.Spares name := by
    unfold requireBody
    split
    · exact .pure _
    · exact call.spares_reject _
  have own : call.requireBody.Ensures (· ∈ call.body) := by
    unfold requireBody
    split
    · rename_i body there
      exact .pure there
    · exact .throw _
  exact spares.bind_ensured own fun body member => (bodies body member).text

end Call

namespace Tags

theorem spares_singleText (call : Call) : (singleText call).Spares name :=
  (call.spares_requireCount 1).bind fun _ => .pure _

theorem spares_print : Handler.Spares name print := fun call _ =>
  call.spares_requireNoBody.bind fun _ => (spares_singleText call).bind fun _ => .pure _

theorem spares_verbatim : Handler.Spares name verbatim := fun call _ =>
  call.spares_requireNoBody.bind fun _ => (spares_singleText call).bind fun _ => .pure _

theorem spares_contains : Handler.Spares name contains := fun call _ =>
  (call.spares_requireCount 2).bind fun _ => .pure _

theorem spares_textMap (f : String → String) : Handler.Spares name (textMap f) := fun call _ =>
  (spares_singleText call).bind fun _ => .pure _

theorem spares_count : Handler.Spares name count := fun call _ =>
  (call.spares_requireCount 1).bind fun _ => .pure _

theorem spares_comment : Handler.Spares name comment := fun _ _ => .pure _

theorem spares_date : Handler.Spares name date := by
  intro call _
  unfold date
  dsimp only
  split
  · split
    · exact call.spares_reject _
    split
    · exact call.spares_reject _
    refine (Spares.ofAttempt _).bind fun pattern => ?_
    split
    · exact call.spares_reject _
    split
    · exact call.spares_reject _
    · exact .pure _
  · exact call.spares_reject _

theorem spares_assigned {call : Call} (bodies : ∀ body ∈ call.body, body.Spares name) :
    (assigned call).Spares name := by
  unfold assigned
  split
  · exact (Call.spares_bodyText bodies).bind fun _ => .pure _
  · exact call.spares_requireNoBody.bind fun _ => .pure _

/-- A call that assigns along a path which does not begin with the name leaves its entry alone. -/
theorem spares_assign {call : Call} (bodies : ∀ body ∈ call.body, body.Spares name)
    (avoids : ∀ key, (call.parameter 0).asString = some key → (Path.parse key).Avoids name) :
    (assign call).Spares name := by
  unfold assign
  dsimp only
  split
  · split
    · exact call.spares_reject _
    · rename_i key text
      refine (spares_assigned bodies).bind fun value => ?_
      intro data result after possible
      have current : Evaluation.data.Gives data data := rfl
      rw [current.runOn_bind] at possible
      split at possible
      · rename_i changed written
        cases Routine.outcome_done possible
        exact Value.field?_trySet (avoids key text) written
      · exact call.spares_reject _ data result after possible
  · exact call.spares_reject _

/-- Of the tags there are, only the one that assigns writes anything. -/
theorem builtin_spares : builtin.Each fun handler => handler = assign ∨ handler.Spares name := by
  refine .registerAll .empty fun entry member => ?_
  simp only [List.mem_cons, List.not_mem_nil, or_false] at member
  rcases member with rfl | rfl | rfl | rfl | rfl | rfl | rfl | rfl | rfl | rfl | rfl
  · exact .inr spares_print
  · exact .inr spares_verbatim
  · exact .inr spares_contains
  · exact .inr (spares_textMap _)
  · exact .inr (spares_textMap _)
  · exact .inr (spares_textMap _)
  · exact .inr spares_count
  · exact .inl rfl
  · exact .inl rfl
  · exact .inr spares_date
  · exact .inr spares_comment

end Tags

/-! ## Nodes -/

namespace Scope

variable {scope : Scope}

/-- Evaluating the node writes along no path that begins with the name, outside of the bodies of
conditionals and loops. -/
inductive Sparing (scope : Scope) (name : String) : Node → Prop
  | raw (source : Source) (data : List UInt8) : Sparing scope name (.raw source data)
  | literal (source : Source) (constant : Literal) : Sparing scope name (.literal source constant)
  | identifier (source : Source) (path : Path) : Sparing scope name (.identifier source path)
  | interpolated {source : Source} {nodes : List Node}
      (each : ∀ node ∈ nodes, Sparing scope name node) :
      Sparing scope name (.interpolated source nodes)
  | infixOp {source : Source} {op : InfixOp} {left right : Node} (first : Sparing scope name left)
      (second : Sparing scope name right) : Sparing scope name (.infixOp source op left right)
  | negation {source : Source} {operand : Node} (inside : Sparing scope name operand) :
      Sparing scope name (.negation source operand)
  | conditional {source : Source} {condition : Node} {body : List Node}
      {others : List (Node × List Node)} (first : Sparing scope name condition)
      (rest : ∀ branch ∈ others, Sparing scope name branch.1) :
      Sparing scope name (.conditional source condition body others)
  | loop {source : Source} {key data : Node} {body : List Node} (named : Sparing scope name key)
      (listed : Sparing scope name data) : Sparing scope name (.loop source key data body)
  | embed {source : Source} {path : Node} (named : Sparing scope name path)
      (templates : ∀ render, scope.embedding = .available render →
        ∀ text, (render text).Spares name) : Sparing scope name (.embed source path)
  | tag {source : Source} {tag : String} {parameters : List Node} {body : Option (List Node)}
      (given : ∀ node ∈ parameters, Sparing scope name node)
      (block : ∀ nodes, body = some nodes → ∀ node ∈ nodes, Sparing scope name node)
      (handler : ∀ handler, scope.tags.find? tag = some handler → handler.Spares name) :
      Sparing scope name (.tag source tag parameters body)
  | assign {source place : Source} {tag key : String} {others : List Node}
      {body : Option (List Node)} (assigns : scope.tags.find? tag = some Tags.assign)
      (avoids : (Path.parse key).Avoids name) (given : ∀ node ∈ others, Sparing scope name node)
      (block : ∀ nodes, body = some nodes → ∀ node ∈ nodes, Sparing scope name node) :
      Sparing scope name (.tag source tag (.literal place (.string key) :: others) body)

section Nodes

variable {nodes : List Node}

theorem spares_renderAll (each : ∀ node ∈ nodes, (scope.render node).Spares name) :
    (scope.renderAll nodes).Spares name := by
  induction nodes with
  | nil =>
    rw [renderAll]
    exact .pure _
  | cons node rest ih =>
    obtain ⟨first, others⟩ := List.forall_mem_cons.mp each
    rw [renderAll]
    exact first.bind fun _ => (ih others).bind fun _ => .pure _

theorem spares_renderResolved (each : ∀ node ∈ nodes, (scope.render node).Spares name) :
    (scope.renderResolved nodes).Spares name := by
  induction nodes with
  | nil =>
    rw [renderResolved]
    exact .pure _
  | cons node rest ih =>
    obtain ⟨first, others⟩ := List.forall_mem_cons.mp each
    rw [renderResolved]
    exact first.resolved.bind fun _ => (ih others).bind fun _ => .pure _

theorem spares_renderBranches {branches : List (Node × List Node)}
    (conditions : ∀ branch ∈ branches, (scope.render branch.1).Spares name) :
    (scope.renderBranches branches).Spares name := by
  induction branches with
  | nil =>
    rw [renderBranches]
    exact .pure _
  | cons branch rest ih =>
    obtain ⟨first, others⟩ := List.forall_mem_cons.mp conditions
    rw [renderBranches]
    refine first.resolved.bind fun value => ?_
    split
    · exact .isolated _ _
    · exact ih others

theorem spares_iterated {source : Source} {key data : Evaluation Value}
    (body : Evaluation (List Value)) (named : key.Spares name) (listed : data.Spares name) :
    (iterated source key data body).Spares name := by
  refine named.resolved.bind fun value => ?_
  split
  · exact .throw _
  refine listed.resolved.bind fun value => ?_
  split
  · exact .pure _
  · exact .forItems _ _ _
  · exact .throw _

theorem spares_embed {source : Source} {path : Evaluation Value} (named : path.Spares name)
    (templates : ∀ render, scope.embedding = .available render →
      ∀ text, (render text).Spares name) :
    (scope.embed source path).Spares name := by
  refine named.resolved.bind fun value => ?_
  split
  · exact .throw _
  split
  · exact .throw _
  · exact .throw _
  · rename_i render available
    exact (templates render available _).bind fun _ => .pure _

/-- The body of a tag leaves the entry alone when its nodes do. -/
theorem spares_body (each : ∀ node ∈ nodes, (scope.render node).Spares name) :
    (Body.of nodes (scope.renderAll nodes)).Spares name where
  text := (spares_renderAll each).finished
  values := (spares_renderAll each).bind fun _ => .pure _

theorem spares_block {body : Option (List Node)}
    (each : ∀ nodes, body = some nodes → ∀ node ∈ nodes, (scope.render node).Spares name) :
    ∀ b ∈ body.map fun nodes => Body.of nodes (scope.renderAll nodes), b.Spares name := by
  intro b member
  obtain ⟨nodes, there, rfl⟩ := Option.map_eq_some_iff.mp member
  exact spares_body (each nodes there)

theorem spares_call {source : Source} {tag : String} {parameters : Evaluation (List Value)}
    {body : Option Body} {P : List Value → Prop} (given : parameters.Spares name)
    (ensured : parameters.Ensures P) (block : ∀ b ∈ body, b.Spares name)
    (handler : ∀ handler, scope.tags.find? tag = some handler → ∀ call : Call,
      P call.parameters → (∀ b ∈ call.body, b.Spares name) → (handler call).Spares name) :
    (scope.call source tag parameters body).Spares name := by
  unfold call
  split
  · exact .throw _
  · rename_i found there
    exact given.bind_ensured ensured fun values holds => handler found there _ holds block

end Nodes

theorem resolved_literal (place : Source) (text : String) :
    (resolved (scope.render (.literal place (.string text)))).Ensures (· = .string text) := by
  rw [render, resolved, pure_bind]
  exact .ofAttempt (.done (by rintro a ⟨⟩; rfl))

/-- The first parameter of a call is the text that is written there. -/
theorem renderResolved_literal (place : Source) (key : String) (others : List Node) :
    (scope.renderResolved (.literal place (.string key) :: others)).Ensures
      fun values => values[0]? = some (.string key) := by
  rw [renderResolved]
  refine (resolved_literal place key).bind ?_
  rintro _ rfl
  exact (Ensures.any _).bind fun values _ => .pure rfl

theorem render_tag (source : Source) (tag : String) (parameters : List Node)
    (body : Option (List Node)) : scope.render (.tag source tag parameters body) =
      scope.call source tag (scope.renderResolved parameters)
        (body.map fun nodes => .of nodes (scope.renderAll nodes)) := by
  cases body <;> rw [render] <;> rfl

/-- A node that writes along no path which begins with the name leaves its entry alone, whether it
succeeds or fails, and whatever others do to the store meanwhile. -/
theorem Sparing.spares {node : Node} (sparing : scope.Sparing name node) :
    (scope.render node).Spares name := by
  induction sparing with
  | raw source data | literal source constant =>
    rw [render]
    exact .pure _
  | identifier source path =>
    rw [render]
    exact Spares.data.bind fun _ => .pure _
  | interpolated each ih =>
    rw [render]
    exact (spares_renderAll ih).finished.bind fun _ => .pure _
  | infixOp first second ih ih' =>
    rw [render]
    exact ih.resolved.bind fun _ => ih'.resolved.bind fun _ => .pure _
  | negation inside ih =>
    rw [render]
    exact ih.resolved.bind fun _ => .pure _
  | conditional first rest ih ih' =>
    rw [render]
    refine ih.resolved.bind fun value => ?_
    split
    · exact .isolated _ _
    · exact spares_renderBranches ih'
  | loop named listed ih ih' =>
    rw [render]
    exact spares_iterated _ ih ih'
  | embed named templates ih =>
    rw [render]
    exact spares_embed ih templates
  | tag given block handler ih ih' =>
    rw [render_tag]
    refine spares_call (spares_renderResolved ih) (.any _) (spares_block ih') ?_
    exact fun found there call _ bodies => handler found there call bodies
  | @assign source place tag key others body assigns avoids given block ih ih' =>
    have parameters : ∀ node ∈ Node.literal place (.string key) :: others,
        (scope.render node).Spares name := by
      refine List.forall_mem_cons.mpr ⟨?_, ih⟩
      rw [render]
      exact .pure _
    rw [render_tag]
    refine spares_call (spares_renderResolved parameters) (renderResolved_literal place key others)
      (spares_block ih') ?_
    intro found there call first bodies
    obtain rfl : Tags.assign = found := Option.some.inj (assigns.symm.trans there)
    refine Tags.spares_assign bodies fun text same => ?_
    rw [Call.parameter, first] at same
    obtain rfl : key = text := Option.some.inj same
    exact avoids

end Scope

end Stencil
