import Stencil.Proofs.Rendering.Isolation
import Stencil.Proofs.Rendering.Spelling

/-! # Which branch is taken

The conditions of a chain of branches are evaluated in order, each on the data and the store that
the one before it left, up to the first that is truthy. What stands behind that one is not looked
at. The body that is taken is then rendered as a template of its own would be, on a copy of the
entries.
-/

namespace Stencil

open Routine (Assured Runs)

variable {scope : Scope} {may : Store → Store → Prop} {data left : Value} {s t : Store}

namespace Scope

/-- From some data and a store the chain comes to a decision, and leaves other data and another
store. No body is part of this, nor is any condition behind the one that decides. -/
inductive Decides (scope : Scope) (may : Store → Store → Prop) : List (Node × List Node) →
    Value → Store → Except Error Plan → Value → Store → Prop
  | nothing (data : Value) (s : Store) : Decides scope may [] data s (.ok .nothing) data s
  | taken {condition : Node} {body : List Node} {rest : List (Node × List Node)}
      {data left value : Value} {s t : Store}
      (tested : Runs may ((resolved (scope.render condition)).runOn data) s (.ok value, left) t)
      (holds : value.truthy = true) :
      Decides scope may ((condition, body) :: rest) data s (.ok (.once body)) left t
  | passed {condition : Node} {body : List Node} {rest : List (Node × List Node)}
      {data middle left value : Value} {s between t : Store} {decision : Except Error Plan}
      (tested : Runs may ((resolved (scope.render condition)).runOn data) s (.ok value, middle)
        between)
      (fails : value.truthy = false)
      (others : Decides scope may rest middle between decision left t) :
      Decides scope may ((condition, body) :: rest) data s decision left t
  | failed {condition : Node} {body : List Node} {rest : List (Node × List Node)}
      {data left : Value} {s t : Store} {why : Error}
      (tested : Runs may ((resolved (scope.render condition)).runOn data) s (.error why, left) t) :
      Decides scope may ((condition, body) :: rest) data s (.error why) left t

namespace Decides

variable {branches : List (Node × List Node)} {decision : Except Error Plan}

theorem not_each {body : List Node} {key : String} {items : List Value}
    (decided : scope.Decides may branches data s decision left t) :
    decision ≠ .ok (.each body key items) := by
  induction decided with
  | passed _ _ _ ih => exact ih
  | _ => exact nofun

/-- What stands behind the branch that is taken has no part in the decision. -/
theorem rest_irrelevant {body : List Node}
    (decided : scope.Decides may branches data s (.ok (.once body)) left t) :
    ∃ before condition rest, branches = before ++ (condition, body) :: rest ∧
      ∀ rest', scope.Decides may (before ++ (condition, body) :: rest') data s (.ok (.once body))
        left t := by
  generalize same : (.ok (.once body) : Except Error Plan) = decision at decided
  induction decided with
  | nothing | failed => cases same
  | @taken condition _ rest _ _ _ _ _ tested holds =>
    cases same
    exact ⟨[], condition, rest, rfl, fun _ => .taken tested holds⟩
  | @passed condition block _ _ _ _ _ _ _ _ _ tested fails _ ih =>
    obtain ⟨before, condition', rest, rfl, irrelevant⟩ := ih same
    exact ⟨(condition, block) :: before, condition', rest, rfl,
      fun rest' => .passed tested fails (irrelevant rest')⟩

/-- A chain either decides itself or leaves the decision to what is appended to it. -/
theorem of_append {others : List (Node × List Node)}
    (decided : scope.Decides may (branches ++ others) data s decision left t) :
    scope.Decides may branches data s decision left t ∧ decision ≠ .ok .nothing ∨
      ∃ middle between, scope.Decides may branches data s (.ok .nothing) middle between ∧
        scope.Decides may others middle between decision left t := by
  induction branches generalizing data s with
  | nil => exact .inr ⟨data, s, .nothing data s, decided⟩
  | cons branch rest ih =>
    cases decided with
    | taken tested holds => exact .inl ⟨.taken tested holds, nofun⟩
    | failed tested => exact .inl ⟨.failed tested, nofun⟩
    | passed tested fails behind =>
      rcases ih behind with ⟨decides, some⟩ | ⟨middle, between, none, decides⟩
      · exact .inl ⟨.passed tested fails decides, some⟩
      · exact .inr ⟨middle, between, .passed tested fails none, decides⟩

/-- A condition that is tested at once, and is not truthy, leaves the decision to the others. -/
theorem of_falsy {condition : Node} {body : List Node} {rest : List (Node × List Node)}
    {value middle : Value}
    (tested : (resolved (scope.render condition)).runOn data = .done (.ok value, middle))
    (fails : value.truthy = false)
    (decided : scope.Decides may ((condition, body) :: rest) data s decision left t) :
    scope.Decides may rest middle s decision left t := by
  cases decided with
  | taken ran holds =>
    rw [tested] at ran
    cases ran
    exact absurd (fails.symm.trans holds) (by decide)
  | failed ran =>
    rw [tested] at ran
    cases ran
  | passed ran _ others =>
    rw [tested] at ran
    cases ran
    exact others

/-- A condition that is tested at once, and is truthy, decides on its body. -/
theorem of_truthy {condition : Node} {body : List Node} {rest : List (Node × List Node)}
    {value middle : Value}
    (tested : (resolved (scope.render condition)).runOn data = .done (.ok value, middle))
    (holds : value.truthy = true)
    (decided : scope.Decides may ((condition, body) :: rest) data s decision left t) :
    decision = .ok (.once body) ∧ left = middle ∧ t = s := by
  cases decided with
  | taken ran _ =>
    rw [tested] at ran
    cases ran
    exact ⟨rfl, rfl, rfl⟩
  | failed ran =>
    rw [tested] at ran
    cases ran
  | passed ran fails _ =>
    rw [tested] at ran
    cases ran
    exact absurd (fails.symm.trans holds) (by decide)

/-- What stands under the constant truth is taken, without any effect. -/
theorem of_true {place : Source} {body : List Node}
    (decided : scope.Decides may [(.literal place (.bool true), body)] data s decision left t) :
    decision = .ok (.once body) ∧ left = data ∧ t = s := by
  have tested : (resolved (scope.render (.literal place (.bool true)))).runOn data =
      .done (.ok (.bool true), data) := by
    rw [render]
    rfl
  exact of_truthy tested rfl decided

end Decides

/-- Choosing a branch is coming to a decision. -/
theorem runs_choose_iff {branches : List (Node × List Node)} {decision : Except Error Plan} :
    Runs may ((scope.choose branches).runOn data) s (decision, left) t ↔
      scope.Decides may branches data s decision left t := by
  constructor
  · intro run
    induction branches generalizing data s with
    | nil =>
      cases run
      exact .nothing _ _
    | cons branch rest ih =>
      rw [choose, Evaluation.runOn_bind] at run
      obtain ⟨⟨result, middle⟩, between, tested, behind⟩ := run.of_bind
      cases result with
      | error why =>
        cases behind
        exact .failed tested
      | ok value =>
        dsimp only at behind
        split at behind
        · rename_i holds
          cases behind
          exact .taken tested holds
        · rename_i fails
          exact .passed tested (Bool.eq_false_of_not_eq_true fails) (ih behind)
  · intro decided
    induction decided with
    | nothing data s => exact .done _ _
    | taken tested holds =>
      rw [choose, Evaluation.runOn_bind]
      refine tested.bind ?_
      dsimp only
      rw [if_pos holds]
      exact .done _ _
    | passed tested fails _ ih =>
      rw [choose, Evaluation.runOn_bind]
      refine tested.bind ?_
      dsimp only
      rw [if_neg (by simp [fails])]
      exact ih
    | failed tested =>
      rw [choose, Evaluation.runOn_bind]
      exact tested.bind (.done _ _)

/-! ## The body that is taken -/

end Scope

/-- The same end, but that a value without a text is reported where all of the body stands. -/
inductive Reported (source : Source) : Except Error String → Except Error String → Prop
  | same (result : Except Error String) : Reported source result result
  | textless (fault : SerializeFault) (place : Source) :
      Reported source (.error (.serialize fault place)) (.error (.serialize fault source))

/-- The text of a block is that of its nodes, but for where a value without a text is reported. -/
theorem reported_flattenNodes (node : Node) {nodes : List Node} {values : List Value}
    (fits : values.length = nodes.length) :
    Reported node.source (flattenNodes nodes values) (flattenNodes [node] [.array values]) := by
  have flattened := flattenNodes_of_flattenItems fits
  have whole : flattenNodes [node] [.array values] =
      (Value.flattenItems values).mapError fun fault => .serialize fault node.source := by
    rw [flattenNodes, Value.flatten]
    cases Value.flattenItems values with
    | error fault => rfl
    | ok text => exact congrArg Except.ok String.append_empty
  rw [whole]
  cases result : Value.flattenItems values with
  | ok text =>
    rw [result] at flattened
    rw [flattened]
    exact .same _
  | error fault =>
    rw [result] at flattened
    obtain ⟨inner, -, failed⟩ := flattened
    rw [failed]
    exact .textless fault inner.source

namespace Scope

/-- The body of a conditional prints what it does as a template of its own on a copy of the
entries, and leaves the data around it alone. -/
def PrintsApart (scope : Scope) (may : Store → Store → Prop) (source : Source) (body : List Node)
    (data : Value) (s : Store) (result : Except Error String) (t : Store) : Prop :=
  ∃ result' own, Runs may ((scope.serialize body).runOn (data.derive [])) s (result', own) t ∧
    Reported source result' result

/-- A body prints what its values spell. -/
theorem runs_serialize {body : List Node} {values : Except Error (List Value)}
    {result : Except Error String} {middle : Store}
    (evaluated : Runs may ((scope.renderAll body).runOn data) s (values, left) middle)
    (spelled : match values with
      | .ok values => Runs may (spell body values) middle result t
      | .error why => result = .error why ∧ t = middle) :
    Runs may ((scope.serialize body).runOn data) s (result, left) t := by
  rw [Scope.serialize, finished_eq, Evaluation.runOn_bind]
  refine evaluated.bind ?_
  cases values with
  | error why =>
    obtain ⟨rfl, rfl⟩ := spelled
    exact .done _ _
  | ok values => exact Runs.bind spelled (.done _ _)

/-- A body with data of its own prints as a template does, and the data around stay. -/
theorem printsApart_of_runs {node : Node} {body : List Node} {result : Except Error String}
    (run : Runs may ((forked (scope.renderAll body) >>= fun value =>
      Evaluation.ofAttempt (spell [node] [value])).runOn data) s (result, left) t) :
    left = data ∧ scope.PrintsApart may node.source body data s result t := by
  rw [Evaluation.runOn_bind, forked_runOn, Routine.bind_assoc, Evaluation.attemptOn,
    Routine.bind_assoc] at run
  obtain ⟨⟨values, own⟩, middle, evaluated, rest⟩ := run.of_bind
  cases values with
  | error why =>
    cases rest
    exact ⟨rfl, .error why, own, runs_serialize evaluated ⟨rfl, rfl⟩, .same _⟩
  | ok values =>
    change Runs may ((spell [node] [.array values]).bind fun text => .done (text, data)) middle
      (result, left) t at rest
    rw [spell_block, Routine.bind_assoc] at rest
    obtain ⟨joined, after, resolves, finish⟩ := rest.of_bind
    cases finish
    have spelled : Runs may (spell body values) middle (joined >>= flattenNodes body) t := by
      rw [spell_eq_bind]
      exact resolves.bind (.done _ _)
    refine ⟨rfl, _, own, runs_serialize evaluated spelled, ?_⟩
    cases joined with
    | error why => exact .same _
    | ok computed =>
      have same := (Value.joinAll_resolveItems_assured Store.lasting_true values).of_outcome
        ⟨middle, t, trivial, resolves.mono fun _ _ _ => trivial⟩
      have fits : values.length = body.length :=
        length_of_renderAll (evaluated.bind (.done (Except.ok (values, own)) middle))
      exact reported_flattenNodes node ((Value.length_of_computedItems? same.symm).trans fits)

/-- Every run of a conditional first comes to a decision. When a condition fails so does the
conditional; when no branch is taken nothing is printed; and otherwise the one body is printed that
was decided on. The data are left as the conditions leave them. -/
theorem runs_conditional {source : Source} {condition : Node} {body : List Node}
    {others : List (Node × List Node)} {result : Except Error String}
    (run : Runs may ((scope.serialize [.conditional source condition body others]).runOn data) s
      (result, left) t) :
    ∃ decision between,
      scope.Decides may ((condition, body) :: others) data s decision left between ∧
      match decision with
      | .error why => result = .error why ∧ t = between
      | .ok (.once chosen) => scope.PrintsApart may source chosen left between result t
      | .ok _ => result = .ok "" ∧ t = between := by
  have bodied : (Node.conditional source condition body others).runsBodies := rfl
  have whole : scope.serialize [.conditional source condition body others] =
      scope.choose ((condition, body) :: others) >>= fun plan =>
        scope.carryOut plan >>= fun value =>
          Evaluation.ofAttempt (spell [.conditional source condition body others] [value]) := by
    rw [serialize_singleton, render_eq_plan scope bodied, bind_assoc]
    rfl
  rw [whole, Evaluation.runOn_bind] at run
  obtain ⟨⟨decision, middle⟩, between, chosen, rest⟩ := run.of_bind
  have decided := runs_choose_iff.mp chosen
  cases decision with
  | error why =>
    cases rest
    exact ⟨_, _, decided, rfl, rfl⟩
  | ok plan =>
    cases plan with
    | once body =>
      obtain ⟨rfl, prints⟩ := printsApart_of_runs rest
      exact ⟨_, _, decided, prints⟩
    | nothing =>
      change Runs may ((Evaluation.ofAttempt (spell _ [.null])).runOn middle) between _ _ at rest
      rw [spell_null] at rest
      cases rest
      exact ⟨_, _, decided, rfl, rfl⟩
    | each body key items => exact (decided.not_each rfl).elim

end Scope

end Stencil
