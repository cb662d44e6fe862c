import Mathlib
import Stencil.Proofs.Evaluation
import Stencil.Proofs.Routine.Joined
import Stencil.Render
import Stencil.Tags.Builtin

/-! # Bodies keep to themselves

A conditional or a loop first evaluates its head in the data around it: conditions up to the first
that is truthy, or the key and the source of the loop. What the head decides is a plan, and only the
head can change the data around. Each body of the plan runs on data of its own, derived from the
data as the head leaves it, and whatever it writes there is dropped with them, however it ends.
-/

namespace Stencil

open Routine (Assured Outcome Runs)

/-! ## Heads -/

/-- What a conditional or a loop is to do when its head is evaluated: nothing, a body, or a body for
each item under a key. -/
inductive Plan
  | nothing
  | once (body : List Node)
  | each (body : List Node) (key : String) (items : List Value)

def Node.runsBodies : Node → Bool
  | .conditional .. | .loop .. => true
  | _ => false

namespace Scope

/-- Evaluates conditions in order up to the first that is truthy, which decides on its body. -/
def choose (scope : Scope) : List (Node × List Node) → Evaluation Plan
  | [] => return .nothing
  | (condition, body) :: rest => do
    if (← resolved (scope.render condition)).truthy then return .once body
    else scope.choose rest

/-- Evaluates the key and then the source of a loop. -/
def iterate (scope : Scope) (source : Source) (key data : Node) (body : List Node) :
    Evaluation Plan := do
  match (← resolved (scope.render key)).asString with
  | none => throw (.serialize .loopKey source)
  | some name =>
    match ← resolved (scope.render data) with
    | .null => return .nothing
    | .array items => return .each body name items
    | other => throw (.serialize (.loopData other.typeName) source)

/-- Evaluates the head of a conditional or of a loop; other nodes have none. -/
def plan (scope : Scope) : Node → Evaluation Plan
  | .conditional _ condition body others => scope.choose ((condition, body) :: others)
  | .loop source key data body => scope.iterate source key data body
  | _ => return .nothing

/-- Runs the bodies of a plan. -/
def carryOut (scope : Scope) : Plan → Evaluation Value
  | .nothing => return .null
  | .once body => forked (scope.renderAll body)
  | .each body key items => forItems key items (scope.renderAll body)

/-- Branches are rendered by choosing one and carrying it out. -/
theorem renderBranches_eq (scope : Scope) (branches : List (Node × List Node)) :
    scope.renderBranches branches = scope.choose branches >>= scope.carryOut := by
  induction branches with
  | nil =>
    unfold renderBranches choose
    rw [pure_bind]
    rfl
  | cons branch rest ih =>
    unfold renderBranches choose
    rw [bind_assoc]
    refine congrArg _ (funext fun value => ?_)
    split
    · rw [pure_bind]
      rfl
    · exact ih

/-- A conditional or a loop carries out what its head decides. -/
theorem render_eq_plan (scope : Scope) {node : Node} (bodied : node.runsBodies) :
    scope.render node = scope.plan node >>= scope.carryOut := by
  cases node with
  | conditional source condition body others =>
    have whole := scope.renderBranches_eq ((condition, body) :: others)
    rw [renderBranches] at whole
    rw [render]
    exact whole
  | loop source key data body =>
    unfold render plan iterate iterated
    rw [bind_assoc]
    refine congrArg _ (funext fun name => ?_)
    cases name.asString with
    | none => rfl
    | some name =>
      dsimp only
      rw [bind_assoc]
      refine congrArg _ (funext fun items => ?_)
      cases items <;> rfl
  | _ => cases bodied

/-! ## Bodies -/

/-- On data of its own a body can end so, whatever others do to the store at its pauses. -/
def BodyEnds (scope : Scope) (body : List Node) (start : Value)
    (result : Except Error (List Value)) : Prop :=
  ∃ left, Outcome (fun _ => True) ((scope.renderAll body).runOn start) (result, left)

/-- A run of a body is an end that it can have. -/
theorem bodyEnds_of_runs {scope : Scope} {body : List Node} {start : Value}
    {may : Store → Store → Prop} {s after : Store} {result : Except Error (List Value)}
    (run : Runs may ((scope.renderAll body).attemptOn start) s result after) :
    scope.BodyEnds body start result := by
  obtain ⟨⟨result', left⟩, middle, whole, finish⟩ := run.of_bind
  obtain ⟨rfl, rfl⟩ := Runs.done_iff.mp finish
  exact ⟨left, s, _, trivial, whole.mono fun _ _ _ => trivial⟩

end Scope

/-- The data that the bodies of a loop start from: the entries around the loop, with the bindings
of each item. -/
def itemStarts (around : List (String × Value)) (key : String) (items : List Value) : List Value :=
  items.mapIdx fun place item =>
    .map (Entries.insertAll around (loopBindings key items.length place item))

/-- What can come out of a plan, given the entries of the data around. A body starts from these
entries, and each item of a loop from them with its own bindings. A loop has the values of all its
items in order, or fails as the body of one of them can. -/
inductive Plan.Yields (scope : Scope) (around : List (String × Value)) :
    Plan → Except Error Value → Prop
  | nothing : Yields scope around .nothing (.ok .null)
  | once {body : List Node} {result : Except Error (List Value)}
      (ends : scope.BodyEnds body (.map around) result) :
      Yields scope around (.once body) (result.map .array)
  | each {body : List Node} {key : String} {items : List Value} {results : List (List Value)}
      (ends : List.Forall₂ (fun start values => scope.BodyEnds body start (.ok values))
        (itemStarts around key items) results) :
      Yields scope around (.each body key items) (.ok (.array (results.map .array)))
  | failed {body : List Node} {key : String} {items : List Value} {start : Value} {why : Error}
      (item : start ∈ itemStarts around key items) (ends : scope.BodyEnds body start (.error why)) :
      Yields scope around (.each body key items) (.error why)

namespace Scope

variable {scope : Scope} {may : Store → Store → Prop} {data after : Value} {s middle : Store}
  {result : Except Error Value}

/-- A conditional runs its body on a copy of the entries around. -/
theorem forked_runOn (body : Evaluation (List Value)) (data : Value) :
    (forked body).runOn data = (body.attemptOn (.map (data.asMap.getD []))).bind fun values =>
      .done (values.map .array, data) := by
  change Routine.bind (Evaluation.attemptOn _ _) _ = _
  rw [Evaluation.attemptOn_map, Routine.bind_assoc]
  rfl

/-- A body is forked off the data, which stay. -/
theorem forked_yields {body : List Node}
    (run : Runs may ((forked (scope.renderAll body)).runOn data) s (result, after) middle) :
    after = data ∧ Plan.Yields scope (data.asMap.getD []) (.once body) result := by
  rw [forked_runOn] at run
  obtain ⟨values, _, first, finish⟩ := run.of_bind
  obtain ⟨same, rfl⟩ := Runs.done_iff.mp finish
  cases same
  exact ⟨rfl, .once (bodyEnds_of_runs first)⟩

/-- A loop joins its bodies, each on the data that its item starts from. -/
theorem forItems_runOn (key : String) (items : List Value) (body : Evaluation (List Value))
    (data : Value) : (forItems key items body).runOn data =
      (Routine.joinAll ((itemStarts (data.asMap.getD []) key items).map body.attemptOn)).bind
        fun results => .done (results.map fun values => .array (values.map .array), data) := by
  rw [itemStarts, List.mapIdx_eq_zipIdx_map, List.map_map, forItems, Evaluation.runOn_bind]
  change Evaluation.runOn (_ >>= _) data = _
  rw [Evaluation.runOn_bind, Evaluation.runOn_ofAttempt, Routine.bind_assoc,
    List.mapIdx_eq_zipIdx_map]
  refine congrArg _ (funext ?_)
  intro results
  cases results <;> rfl

/-- The bodies of a loop are forked off the data, which stay. -/
theorem forItems_yields {body : List Node} {key : String} {items : List Value}
    (run : Runs may ((forItems key items (scope.renderAll body)).runOn data) s (result, after)
      middle) :
    after = data ∧ Plan.Yields scope (data.asMap.getD []) (.each body key items) result := by
  rw [forItems_runOn] at run
  obtain ⟨results, _, joined, finish⟩ := run.of_bind
  obtain ⟨same, rfl⟩ := Runs.done_iff.mp finish
  cases same
  have ends := (Assured.joinAll_outcome fun r _ => Assured.free r).of_outcome
    ⟨s, _, trivial, joined.mono fun _ _ _ => trivial⟩
  refine ⟨rfl, ?_⟩
  cases results with
  | ok values =>
    rw [Routine.Joined, List.forall₂_map_right_iff, List.forall₂_map_right_iff] at ends
    refine .each (ends.flip.imp ?_)
    rintro start values ⟨s, _, _, run⟩
    exact bodyEnds_of_runs run
  | error why =>
    obtain ⟨kind, member, fails⟩ := ends
    rw [List.map_map] at member
    obtain ⟨start, item, rfl⟩ := List.mem_map.mp member
    obtain ⟨s, _, _, run⟩ := fails
    exact .failed item (bodyEnds_of_runs run)

/-- Carrying out a plan leaves the data around as they are. -/
theorem carryOut_yields {plan : Plan}
    (run : Runs may ((scope.carryOut plan).runOn data) s (result, after) middle) :
    after = data ∧ plan.Yields scope (data.asMap.getD []) result := by
  cases plan with
  | nothing =>
    cases run
    exact ⟨rfl, .nothing⟩
  | once body => exact forked_yields run
  | each body key items => exact forItems_yields run

/-- Nothing that happens in the bodies of a conditional or of a loop reaches the data around. In
any run, whether it succeeds or fails, and whatever others do to the store meanwhile, the data are
left as evaluating the head alone leaves them: the conditions that are tried, or the key and the
source. The result is that of the head when the head fails, and otherwise one that the planned
bodies can yield, each from data of its own. -/
theorem render_isolated {node : Node} (bodied : node.runsBodies)
    (run : Runs may ((scope.render node).runOn data) s (result, after) middle) :
    ∃ head between, Runs may ((scope.plan node).runOn data) s (head, after) between ∧
      match head with
      | .ok plan => plan.Yields scope (after.asMap.getD []) result
      | .error why => result = .error why := by
  rw [scope.render_eq_plan bodied, Evaluation.runOn_bind] at run
  obtain ⟨⟨head, left⟩, between, first, rest⟩ := run.of_bind
  cases head with
  | error why =>
    obtain ⟨same, rfl⟩ := Runs.done_iff.mp rest
    cases same
    exact ⟨_, _, first, rfl⟩
  | ok plan =>
    obtain ⟨rfl, yields⟩ := carryOut_yields rest
    exact ⟨_, _, first, yields⟩

private def unplaced : Source := ⟨"t", 0, 0, 0, 0, []⟩

private def entryAt (name : String) : Node := .identifier unplaced ⟨[.key name]⟩

private def assigns (tag name : String) (value : List Node) (body : Option (List Node)) : Node :=
  .tag unplaced tag (.literal unplaced (.string name) :: value) body

/-- It reads the entry `x`, writes it and the entry `y`, and where the item is truthy the source of
the loop. -/
private def meddling : List Node :=
  [entryAt "x", assigns "set" "x" [entryAt "item"] none,
    assigns "var" "y" [] (some [.tag unplaced "" [entryAt "item"] none]),
    .conditional unplaced (entryAt "item") [assigns "set" "items" [entryAt "y"] none] []]

private def meddlingLoop : Node :=
  .loop unplaced (.literal unplaced (.string "item")) (entryAt "items") meddling

private def meddlingScope : Scope := ⟨Tags.builtin, .unavailable, 0⟩

private def bothItems : List Value := [.bool true, .null]

private def untouched : Value := .map [("items", .array bothItems)]

private def meddled : Except Error Value :=
  .ok (.array [.array [.null, .null, .null, .array [.null]], .array [.null, .null, .null, .null]])

/-- What the body of the first item writes is neither read for the second, nor in the data around
afterwards. -/
theorem render_isolated_loop :
    ∃ t, Runs (fun _ _ => True) ((meddlingScope.render meddlingLoop).runOn untouched) .empty
        (meddled, untouched) t ∧
      (Plan.each meddling "item" bothItems).Yields meddlingScope [("items", .array bothItems)]
        meddled := by
  have run := Routine.Keeps.runs_run
    (Assured.free ((meddlingScope.render meddlingLoop).runOn untouched) .empty trivial)
  have ran : (((meddlingScope.render meddlingLoop).runOn untouched).run .empty).1 =
      (meddled, untouched) := by rfl
  have planned : (meddlingScope.plan meddlingLoop).runOn untouched =
      .done (.ok (.each meddling "item" bothItems), untouched) := by rfl
  rw [ran] at run
  obtain ⟨head, between, first, yields⟩ := render_isolated rfl run
  rw [planned] at first
  obtain ⟨same, rfl⟩ := Runs.done_iff.mp first
  cases same
  exact ⟨_, run, yields⟩

end Scope

end Stencil
