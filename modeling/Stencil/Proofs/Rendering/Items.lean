import Stencil.Proofs.Rendering.Appending
import Stencil.Proofs.Rendering.Isolation

/-! # The items of a loop

The bodies of a loop go on together, and what they evaluate to is nested in one value until the
whole template is put together. With steady tags this cannot be told from rendering the body once
for each item, one by one and each as a template of its own, and putting the texts in a row.
-/

namespace Stencil

open Comparison (Related)
open Evaluation (success?)
open Routine (Assured Joined)

variable {I : Store → Prop} {lasting : Store.Lasting I} {scope : Scope} {s : Store}
  {α β γ : Type}

/-! ## The text of a value -/

namespace Value

/-- The text of a value once it is computed, if it can be and has one. -/
def printed? (value : Value) : Option String := value.computed?.bind fun v => v.flatten.toOption

theorem printed?_congr {v w : Value} (same : v.computed? = w.computed?) :
    v.printed? = w.printed? := by
  rw [printed?, printed?, same]

/-- The text of items is that of each, joined, if all of them have one. -/
theorem flattenItems_toOption (items : List Value) : (flattenItems items).toOption =
    (items.mapM fun item : Value => item.flatten.toOption).map String.join := by
  induction items with
  | nil => rfl
  | cons item rest ih =>
    have parts : (flattenItems (item :: rest)).toOption =
        item.flatten.toOption.bind fun text => (flattenItems rest).toOption.map (text ++ ·) := by
      rw [flattenItems]
      cases item.flatten <;> cases flattenItems rest <;> rfl
    rw [parts, ih, List.mapM_cons]
    cases item.flatten.toOption with
    | none => rfl
    | some text => cases rest.mapM fun item : Value => item.flatten.toOption <;> simp

theorem mapM_bind {f : α → Option β} {g : β → Option γ} (items : List α) :
    ((items.mapM f).bind fun found => found.mapM g) = items.mapM fun item => (f item).bind g := by
  induction items with
  | nil => rfl
  | cons item rest ih =>
    rw [List.mapM_cons, List.mapM_cons, ← ih]
    cases f item with
    | none => rfl
    | some found => cases rest.mapM f <;> simp

/-- The text of an array is that of its items, in a row. -/
theorem printed?_array (items : List Value) :
    (array items).printed? = (items.mapM printed?).map String.join := by
  have each : items.mapM printed? = (computedItems? items).bind fun computed =>
      computed.mapM fun item => item.flatten.toOption := by
    rw [computedItems?_eq, mapM_bind]
    rfl
  rw [each, printed?, computed?]
  cases computedItems? items with
  | none => rfl
  | some computed =>
    change (array computed).flatten.toOption = _
    rw [flatten, flattenItems_toOption]
    rfl

end Value

/-- Nodes spell what their values do in an array. -/
theorem spelled?_eq_printed? {nodes : List Node} {values : List Value}
    (fits : values.length = nodes.length) :
    spelled? nodes values = (Value.array values).printed? := by
  unfold spelled? Value.printed?
  rw [Value.computed?]
  cases all : Value.computedItems? values with
  | none => rfl
  | some computed =>
    have places := (Value.length_of_computedItems? all).trans fits
    change (flattenNodes nodes computed).toOption = (Value.array computed).flatten.toOption
    rw [Value.flatten, flattenNodes_toOption places]

/-- Alone a node spells the text of its value. -/
theorem spelled?_singleton (node : Node) (value : Value) :
    spelled? [node] [value] = value.printed? := by
  rw [spelled?_eq_printed? rfl, Value.printed?_array, List.mapM_cons, List.mapM_nil]
  cases value.printed? with
  | none => rfl
  | some text =>
    change some (String.join [text]) = some text
    simp

/-! ## One item -/

theorem Evaluation.attemptOn_run (e : Evaluation α) (data : Value) (s : Store) :
    ((e.attemptOn data).run s).1.toOption = (e.alone? data s).map Prod.fst := by
  rw [attemptOn, Routine.run_bind, alone?]
  generalize ((e.runOn data).run s).1 = ended
  obtain ⟨result, left⟩ := ended
  cases result <;> rfl

namespace Scope.Steady

variable (steady : scope.Steady lasting) (kept : I s)
include steady kept

/-- The values of a body print what the body is rendered to as a template of its own. -/
theorem attemptOn_assured (body : List Node) (start : Value) :
    Assured I (fun result => (result.toOption.bind fun values => (Value.array values).printed?) =
      ((scope.serialize body).alone? start s).map Prod.fst)
      ((scope.renderAll body).attemptOn start) := by
  have concurs := (steady.renderAll body).attemptOn (Eq.refl start)
  have printed : ((scope.serialize body).alone? start s).map Prod.fst =
      ((((scope.renderAll body).attemptOn start).run s).1.toOption.bind fun values =>
        (Value.array values).printed?) := by
    rw [Evaluation.attemptOn_run, steady.alone?_serialize kept]
    cases evaluated : (scope.renderAll body).alone? start s with
    | none => rfl
    | some p =>
      have fits := steady.length_of_alone? kept evaluated
      rw [Option.bind_some, Option.map_some, Option.bind_some, spelled?_eq_printed? fits]
      cases (Value.array p.1).printed? <;> rfl
  refine (Attempt.Concur.assured concurs kept).mono fun result same => ?_
  rw [printed]
  generalize result.toOption = given at same ⊢
  generalize Except.toOption _ = given' at same ⊢
  cases same with
  | none => rfl
  | some same => exact Value.printed?_congr (Value.computed?_array same)

/-- The bodies of a loop print, in a row, what the body is rendered to for each item. -/
theorem forItems_assured (node : Node) (name : String) (items : List Value) (body : List Node)
    (around : Value) :
    Assured I (fun ended => success? ended =
        ((itemStarts (around.asMap.getD []) name items).mapM fun start =>
          ((scope.serialize body).alone? start s).map Prod.fst).map
            fun texts => (String.join texts, around))
      ((forItems name items (scope.renderAll body) >>= fun value =>
        Evaluation.ofAttempt (spell [node] [value])).runOn around) := by
  generalize starting : itemStarts (around.asMap.getD []) name items = starts
  have joined : Assured I (fun result => (result.toOption.bind fun results =>
      results.mapM fun values => (Value.array values).printed?) =
        starts.mapM fun start => ((scope.serialize body).alone? start s).map Prod.fst)
      (Routine.joinAll (starts.map (scope.renderAll body).attemptOn)) := by
    refine (Assured.joinAll ?_).mono fun result joined => Joined.toOption_bind_eq joined
    rw [List.forall₂_map_left_iff, List.forall₂_map_right_iff, List.forall₂_same]
    exact fun start _ => steady.attemptOn_assured kept body start
  rw [Evaluation.runOn_bind, forItems_runOn, starting, Routine.bind_assoc]
  refine joined.bind fun result printed => ?_
  rw [← printed]
  cases result with
  | error why => exact .done rfl
  | ok results =>
    refine (spell_assured lasting [node] _).bind fun text spelled => ?_
    rw [spelled?_singleton, Value.printed?_array, List.mapM_map] at spelled
    have whole := congrArg (Option.map (·, around)) spelled
    rw [Option.map_map] at whole
    refine .done (Eq.trans ?_ whole)
    cases text <;> rfl

end Scope.Steady

/-! ## Loops -/

namespace Renderer

variable {renderer : Renderer}

/-- A loop is the concatenation of its items in order, each rendered for itself. Take a key and a
source that have been evaluated, the source on the data that the key left. Then, however others
interrupt the loop: for an array it succeeds exactly when the body succeeds for every item as a
template of its own, on the entries around with the key, the index and the two ends bound in this
order, and its text is what these give in the order of the items. The data around are left as the
head left them. Nothing is printed for null or for no items; a key without a text and any other
source are errors at the loop. -/
theorem loop_items {scope : Scope} (provided : renderer.Provides scope)
    (steady : renderer.SteadyTags s) (source : Source) (key listing : Node) (body : List Node)
    {data middle named : Value}
    (keyed : (resolved (scope.render key)).alone? data s = some (named, middle)) :
    (named.asString = none →
      Assured (renderer.Agrees s) (· = (.error (.serialize .loopKey source), middle))
        ((scope.serialize [.loop source key listing body]).runOn data)) ∧
    ∀ name, named.asString = some name → ∀ found around,
      (resolved (scope.render listing)).alone? middle s = some (found, around) →
      Assured (renderer.Agrees s)
        (match found with
          | .null => (· = (.ok "", around))
          | .array [] => (· = (.ok "", around))
          | .array items => fun ended => success? ended =
              ((itemStarts (around.asMap.getD []) name items).mapM fun start =>
                ((scope.serialize body).alone? start s).map Prod.fst).map
                  fun texts => (String.join texts, around)
          | other => (· = (.error (.serialize (.loopData other.typeName) source), around)))
        ((scope.serialize [.loop source key listing body]).runOn data) := by
  have inside := provided.steady steady
  have kept := Agrees.refl renderer s
  have settled (node : Node) := resolved_related (inside.render node)
  have head := Evaluation.settled_assured (settled key) kept keyed
  rw [Scope.serialize_singleton, Scope.render, iterated, bind_assoc]
  constructor
  · intro textless
    refine Evaluation.assured_bind head ?_
    rw [textless]
    exact .done rfl
  · intro name text found around ranged
    have listed := Evaluation.settled_assured (settled listing) kept ranged
    refine Evaluation.assured_bind head ?_
    rw [text]
    dsimp only
    rw [bind_assoc]
    refine Evaluation.assured_bind listed ?_
    have items (items : List Value) := inside.forItems_assured kept
      (.loop source key listing body) name items body around
    cases found with
    | null =>
      rw [pure_bind, Evaluation.runOn_ofAttempt]
      refine (spell_assured (Agrees.lasting renderer s) _ _).bind fun text spelled => .done ?_
      rw [spelled?_singleton] at spelled
      cases text with
      | error why => cases spelled
      | ok text =>
        cases spelled
        rfl
    | array items' =>
      cases items' with
      | nil => exact (items []).mono fun _ => Evaluation.success?_eq_some_iff.mp
      | cons item rest => exact items (item :: rest)
    | _ => exact .done rfl

/-- A loop over three items prints each of them. -/
theorem loop_items_listed :
    let renderer := Renderer.plaintext (.memory [])
    let source : Source := ⟨"t", 0, 0, 0, 0, []⟩
    let key : Node := .literal source (.string "x")
    let listing : Node := .identifier source ⟨[.key "xs"]⟩
    let body : List Node := [.literal source (.string "-"), .identifier source ⟨[.key "x"]⟩]
    let data : Value := .map [("xs", .array [.string "a", .string "b"])]
    (resolved ((renderer.scopeAt 0).render key)).alone? data .empty = some (.string "x", data) ∧
      Assured (renderer.Agrees .empty) (· = (.ok "-a-b", data))
        (((renderer.scopeAt 0).serialize [.loop source key listing body]).runOn data) := by
  intro renderer source key listing body data
  have steady : renderer.SteadyTags .empty := steadyTags_of_builtin rfl .empty
  have keyed : (resolved ((renderer.scopeAt 0).render key)).alone? data .empty =
      some (.string "x", data) := rfl
  have listed : (resolved ((renderer.scopeAt 0).render listing)).alone? data .empty =
      some (.array [.string "a", .string "b"], data) := by rfl
  have texts : ((itemStarts (data.asMap.getD []) "x" [.string "a", .string "b"]).mapM fun start =>
      (((renderer.scopeAt 0).serialize body).alone? start .empty).map Prod.fst) =
        some ["-a", "-b"] := by decide +kernel
  obtain ⟨-, items⟩ := loop_items (.within 0) steady source key listing body keyed
  refine ⟨keyed, (items "x" rfl _ _ listed).mono fun ended same => ?_⟩
  rw [← Evaluation.success?_eq_some_iff, same, texts]
  rfl

end Renderer

end Stencil
