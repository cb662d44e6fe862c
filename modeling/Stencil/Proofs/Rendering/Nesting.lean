import Stencil.Proofs.Rendering.Appending
import Stencil.Proofs.Rendering.Inlining
import Stencil.Proofs.Rendering.Isolation
import Stencil.Proofs.Rendering.Prints
import Stencil.Proofs.Rendering.Sessions

/-! # How deep templates may embed each other

A chain of templates each of which embeds the next, down to one that is plain text. The embed need
not stand at the top of its template: bodies of conditionals and loops may lie around it, and
strings with templates in them. All these are evaluated in the scope of the template, so none of
them counts, and none is forgotten: a level is used up by each template and by nothing else. The
chain is rendered to its texts inside of each other as long as there are levels left, and otherwise
fails at the first embed that finds none.
-/

namespace Stencil

open Routine (Assured Ended)

variable {α β : Type} {I : Store → Prop} {scope : Scope} {data : Value} {nodes : List Node}
  {result : Except Error String}

/-! ## What has a text -/

/-- The evaluation surely comes to what has the text, or surely fails with the error. -/
def Evaluation.Reaches (I : Store → Prop) (has : α → String → Prop) (e : Evaluation α)
    (data : Value) (result : Except Error String) : Prop :=
  Assured I (fun ended => Ended has ended.1 result) (e.runOn data)

namespace Evaluation.Reaches

variable {has : α → String → Prop} {has' : β → String → Prop} {e : Evaluation α}

theorem pure {a : α} {text : String} (said : has a text) :
    Reaches I has (Pure.pure a) data (.ok text) := .done (.ok said)

theorem throw (why : Error) : Reaches I has (MonadExcept.throw why) data (.error why) :=
  .done (.error why)

/-- What follows changes the text that there is so far, whatever the data are by then. -/
theorem bind {f : α → Evaluation β} {change : String → String} (first : Reaches I has e data result)
    (next : ∀ a text, has a text → ∀ left, Reaches I has' (f a) left (.ok (change text))) :
    Reaches I has' (e >>= f) data (result.map change) := by
  unfold Reaches
  rw [runOn_bind]
  refine Assured.bind first ?_
  rintro ⟨ended, left⟩ said
  cases said with
  | ok said => exact next _ _ said left
  | error why => exact .done (.error why)

/-- What follows has the text that there is so far. -/
theorem follow {f : α → Evaluation β} (first : Reaches I has e data result)
    (next : ∀ a text, has a text → ∀ left, Reaches I has' (f a) left (.ok text)) :
    Reaches I has' (e >>= f) data result := by
  have unchanged : result.map id = result := by cases result <;> rfl
  have mapped : Reaches I has' (e >>= f) data (result.map id) := first.bind next
  rwa [unchanged] at mapped

theorem attemptOn (reaches : Reaches I has e data result) :
    Assured I (Ended has · result) (e.attemptOn data) :=
  Assured.bind reaches fun _ said => .done said

end Evaluation.Reaches

open Evaluation (Reaches)

namespace Value

/-- The value has nothing deferred in it, and the text. -/
structure Says (value : Value) (text : String) : Prop where
  settled : value.Settled
  text : value.flatten = .ok text

/-- The values have nothing deferred in them, and the text one after the other. -/
structure SayAll (values : List Value) (text : String) : Prop where
  settled : ∀ value ∈ values, value.Settled
  text : flattenItems values = .ok text

theorem says_bytes {data : List UInt8} {text : String} (written : Utf8.decode? data = some text) :
    (bytes data).Says text where
  settled := settled_bytes data
  text := by rw [flatten, written]

theorem says_string (text : String) : (string text).Says text := ⟨settled_string text, rfl⟩

theorem sayAll_nil : SayAll [] "" := ⟨nofun, rfl⟩

theorem Says.cons {value : Value} {values : List Value} {text more : String}
    (first : value.Says text) (rest : SayAll values more) :
    SayAll (value :: values) (text ++ more) where
  settled := List.forall_mem_cons.mpr ⟨first.settled, rest.settled⟩
  text := by
    rw [flattenItems, first.text, rest.text]
    rfl

theorem Says.singleton {value : Value} {text : String} (first : value.Says text) :
    SayAll [value] text := String.append_empty (s := text) ▸ first.cons sayAll_nil

theorem flattenItems_append (values others : List Value) : flattenItems (values ++ others) = do
    return (← flattenItems values) ++ (← flattenItems others) := by
  induction values with
  | nil =>
    change _ = (flattenItems others >>= fun text => .ok ("" ++ text))
    simp only [String.empty_append, List.nil_append]
    exact (bind_pure _).symm
  | cons value values ih =>
    simp only [List.cons_append, flattenItems, ih, bind_assoc, pure_bind, String.append_assoc]

theorem SayAll.append {values others : List Value} {text more : String}
    (first : SayAll values text) (rest : SayAll others more) :
    SayAll (values ++ others) (text ++ more) where
  settled := List.forall_mem_append.mpr ⟨first.settled, rest.settled⟩
  text := by
    rw [flattenItems_append, first.text, rest.text]
    rfl

/-- Items that say a text say it as an array. -/
theorem SayAll.array {values : List Value} {text : String} (all : SayAll values text) :
    (array values).Says text where
  settled := by
    rw [Settled, resolve, resolveItems_of_settled all.settled, Routine.joinAll_done]
    rfl
  text := all.text

end Value

open Value (SayAll)

/-- Nodes with values that have a text are put together to that text. -/
theorem spell_of_sayAll {values : List Value} {text : String} (fits : values.length = nodes.length)
    (all : SayAll values text) : spell nodes values = .of (.ok text) := by
  have flat := flattenNodes_of_flattenItems fits
  rw [all.text] at flat
  rw [spell, Value.resolveItems_of_settled all.settled, Routine.joinAll_done]
  exact congrArg Attempt.of flat

namespace Scope

/-- The nodes surely come to values, one for each, that have the text, or surely fail. -/
abbrev Comes (scope : Scope) (I : Store → Prop) (nodes : List Node) (data : Value)
    (result : Except Error String) : Prop :=
  Reaches I (fun values text => values.length = nodes.length ∧ SayAll values text)
    (scope.renderAll nodes) data result

theorem comes_singleton {node : Node}
    (comes : Reaches I Value.Says (scope.render node) data result) :
    scope.Comes I [node] data result := by
  unfold Comes
  rw [renderAll, renderAll]
  exact comes.follow fun value text said left => .pure ⟨rfl, said.singleton⟩

/-- Nodes that come to a text are serialized to it. -/
theorem Comes.finished (comes : scope.Comes I nodes data result) :
    Reaches I Eq (finished nodes (scope.renderAll nodes)) data result := by
  rw [finished_eq]
  refine comes.follow fun values text said left => ?_
  rw [spell_of_sayAll said.1 said.2]
  exact .done (.ok rfl)

section Text

variable {source : Source} {bytes : List UInt8} {text : String}

/-- Text in front of nodes stands in front of what they come to. -/
theorem Comes.before (written : Utf8.decode? bytes = some text)
    (comes : scope.Comes I nodes data result) :
    scope.Comes I (.raw source bytes :: nodes) data (result.map (text ++ ·)) := by
  unfold Comes
  rw [renderAll, render, pure_bind]
  refine comes.bind fun values more said left => .pure ⟨?_, (Value.says_bytes written).cons said.2⟩
  rw [List.length_cons, List.length_cons, said.1]

/-- Text behind an embed is put behind what comes of it. -/
theorem Comes.behind (written : Utf8.decode? bytes = some text)
    (comes : scope.Comes I nodes data result) :
    scope.Comes I (nodes ++ [.raw source bytes]) data (result.map (· ++ text)) := by
  have last : scope.renderAll [.raw source bytes] = pure [.bytes bytes] := by
    rw [renderAll, renderAll, render, pure_bind, pure_bind]
  unfold Comes
  rw [renderAll_append, last]
  refine comes.bind fun values more said left => .pure ⟨?_, ?_⟩
  · rw [List.length_append, List.length_append, said.1]
    rfl
  · exact said.2.append (Value.says_bytes written).singleton

end Text

/-! ## What may lie around an embed -/

/-- The body of a conditional comes to what it comes to on a copy of the data. -/
theorem forked_reaches {body : List Node} (comes : scope.Comes I body (data.derive []) result) :
    Reaches I Value.Says (forked (scope.renderAll body)) data result := by
  unfold Reaches
  rw [forked_runOn]
  refine comes.attemptOn.bind fun ended said => ?_
  cases said with
  | ok said => exact .done (.ok said.2.array)
  | error why => exact .done (.error why)

/-- The only item of a loop comes to what the body comes to on the data with its bindings. -/
theorem forItems_reaches {key : String} {item : Value} {body : List Node}
    (comes : scope.Comes I body (data.derive (loopBindings key 1 0 item)) result) :
    Reaches I Value.Says (forItems key [item] (scope.renderAll body)) data result := by
  have single : itemStarts (data.asMap.getD []) key [item] =
      [data.derive (loopBindings key 1 0 item)] := rfl
  unfold Reaches
  rw [forItems_runOn, single, List.map_singleton, Routine.joinAll_singleton, Routine.bind_assoc]
  refine comes.attemptOn.bind fun ended said => ?_
  cases said with
  | ok said => exact .done (.ok said.2.array.singleton.array)
  | error why => exact .done (.error why)

/-- An interpolated string says what its nodes do. -/
theorem resolved_interpolated {place : Source} (comes : scope.Comes I nodes data result) :
    Reaches I (fun value text => value = .string text)
      (resolved (scope.render (.interpolated place nodes))) data result := by
  rw [render, resolved, bind_assoc]
  refine comes.finished.follow fun text _ same left => ?_
  rw [same, pure_bind, Value.settled_string]
  exact .done (.ok rfl)

/-- A string with a template in it that is given out verbatim comes to what the template comes to.
-/
theorem verbatim_reaches (known : scope.tags.find? "get" = some Tags.verbatim)
    {source place : Source} (comes : scope.Comes I nodes data result) :
    Reaches I Value.Says (scope.render (.tag source "get" [.interpolated place nodes] none)) data
      result := by
  have parameters : Reaches I (fun values text => values = [.string text])
      (scope.renderResolved [.interpolated place nodes]) data result := by
    rw [renderResolved, renderResolved]
    exact (resolved_interpolated comes).follow fun value text same left => .pure (by rw [same])
  rw [render, call, known]
  refine parameters.follow ?_
  rintro _ text rfl left
  rw [Tags.verbatim_eq rfl rfl]
  exact .pure (Value.says_string text)

end Scope

/-! ## Links -/

/-- How a template leads to the next: the path that its embed names, the place of this embed and the
data there, with the text in front and behind. -/
structure Lead where
  before : String
  path : String
  source : Source
  data : Value
  behind : String

/-- The text in front and behind, around what is embedded. -/
def Lead.around (lead : Lead) (inside : String) : String := lead.before ++ inside ++ lead.behind

theorem Lead.around_before (lead : Lead) (text : String) (result : Except Error String) :
    (result.map lead.around).map (text ++ ·) =
      result.map { lead with before := text ++ lead.before }.around := by
  cases result with
  | ok inside => simp only [Except.map, around, String.append_assoc]
  | error why => rfl

theorem Lead.around_behind (lead : Lead) (text : String) (result : Except Error String) :
    (result.map lead.around).map (· ++ text) =
      result.map { lead with behind := lead.behind ++ text }.around := by
  cases result with
  | ok inside => simp only [Except.map, around, String.append_assoc]
  | error why => rfl

/-- The nodes are text and one embed, which may lie in a conditional whose condition surely selects
its body, in a loop over surely one item, and in a string that is given out verbatim, with text
around each of them. Heads and paths are evaluated on the data there. -/
inductive Leads (I : Store → Prop) (scope : Scope) : Value → List Node → Lead → Prop
  | embed {data after value : Value} {source : Source} {node : Node} {path : String}
      (head : Assured I (· = (.ok value, after)) ((resolved (scope.render node)).runOn data))
      (named : value.asString = some path) :
      Leads I scope data [.embed source node] ⟨"", path, source, after, ""⟩
  | before {data : Value} {nodes : List Node} {lead : Lead} {source : Source} {bytes : List UInt8}
      {text : String} (written : Utf8.decode? bytes = some text)
      (leads : Leads I scope data nodes lead) :
      Leads I scope data (.raw source bytes :: nodes) { lead with before := text ++ lead.before }
  | behind {data : Value} {nodes : List Node} {lead : Lead} {source : Source} {bytes : List UInt8}
      {text : String} (written : Utf8.decode? bytes = some text)
      (leads : Leads I scope data nodes lead) :
      Leads I scope data (nodes ++ [.raw source bytes]) { lead with behind := lead.behind ++ text }
  | taken {data after : Value} {node : Node} {body : List Node} {lead : Lead}
      (bodied : node.runsBodies)
      (head : Assured I (· = (.ok (.once body), after)) ((scope.plan node).runOn data))
      (leads : Leads I scope (after.derive []) body lead) : Leads I scope data [node] lead
  | item {data after item : Value} {node : Node} {body : List Node} {key : String} {lead : Lead}
      (bodied : node.runsBodies)
      (head : Assured I (· = (.ok (.each body key [item]), after)) ((scope.plan node).runOn data))
      (leads : Leads I scope (after.derive (loopBindings key 1 0 item)) body lead) :
      Leads I scope data [node] lead
  | get {data : Value} {nodes : List Node} {lead : Lead} {source place : Source}
      (known : scope.tags.find? "get" = some Tags.verbatim)
      (leads : Leads I scope data nodes lead) :
      Leads I scope data [.tag source "get" [.interpolated place nodes] none] lead

/-- Nodes that lead to a template come to what it is rendered to, within the text around. -/
theorem Leads.comes {lead : Lead} (leads : Leads I scope data nodes lead)
    (inside : Reaches I Eq (scope.embedding.render lead.source lead.path) lead.data result) :
    scope.Comes I nodes data (result.map lead.around) := by
  induction leads with
  | embed head named =>
    refine Scope.comes_singleton ?_
    rw [Scope.render, Scope.embed_eq]
    refine Evaluation.assured_bind head ?_
    rw [named]
    refine inside.bind fun text _ same left => ?_
    rw [same, Lead.around, String.empty_append, String.append_empty]
    exact .pure (Value.says_string _)
  | before written leads ih => exact Lead.around_before _ _ _ ▸ (ih inside).before written
  | behind written leads ih => exact Lead.around_behind _ _ _ ▸ (ih inside).behind written
  | taken bodied head leads ih =>
    refine Scope.comes_singleton ?_
    rw [scope.render_eq_plan bodied]
    exact Evaluation.assured_bind head (Scope.forked_reaches (ih inside))
  | item bodied head leads ih =>
    refine Scope.comes_singleton ?_
    rw [scope.render_eq_plan bodied]
    exact Evaluation.assured_bind head (Scope.forItems_reaches (ih inside))
  | get known leads ih => exact Scope.comes_singleton (Scope.verbatim_reaches known (ih inside))

/-- The nodes are text. -/
inductive Texts : List Node → String → Prop
  | nil : Texts [] ""
  | cons {nodes : List Node} {source : Source} {bytes : List UInt8} {text more : String}
      (written : Utf8.decode? bytes = some text) (rest : Texts nodes more) :
      Texts (.raw source bytes :: nodes) (text ++ more)

theorem Texts.comes {text : String} (texts : Texts nodes text) :
    scope.Comes I nodes data (.ok text) := by
  induction texts with
  | nil =>
    unfold Scope.Comes
    rw [Scope.renderAll]
    exact .pure ⟨rfl, Value.sayAll_nil⟩
  | cons written rest ih => exact ih.before written

/-! ## Chains -/

namespace Renderer

variable {renderer : Renderer} {s : Store} {depth : Nat} {path text : String} {leads : List Lead}

/-- From the template at the path on, which `depth` others lie around, each leads to the next, and
the last is text. -/
inductive Chain (renderer : Renderer) (s : Store) :
    Nat → String → Value → List Lead → String → Prop
  | last {depth : Nat} {path text : String} {data : Value} {nodes : List Node}
      (served : renderer.supplied? s (renderer.config.resolve path) = some nodes)
      (texts : Texts nodes text) : Chain renderer s depth path data [] text
  | link {depth : Nat} {path text : String} {data : Value} {nodes : List Node} {lead : Lead}
      {leads : List Lead}
      (served : renderer.supplied? s (renderer.config.resolve path) = some nodes)
      (first : Leads (renderer.Agrees s) (renderer.scopeAt depth) data nodes lead)
      (rest : Chain renderer s (depth + 1) lead.path lead.data leads text) :
      Chain renderer s depth path data (lead :: leads) text

/-- What a chain comes to when so many more templates may be embedded: its texts inside of each
other, or an error at the first embed that finds no level left. -/
def nested : Nat → List Lead → String → Except Error String
  | _, [], text => .ok text
  | 0, lead :: _, _ => .error (.serialize .embedDepth lead.source)
  | levels + 1, lead :: leads, text => (nested levels leads text).map lead.around

/-- As long as the levels are enough, the texts around are put together. -/
theorem nested_of_le {levels : Nat} (enough : leads.length ≤ levels) :
    nested levels leads text = .ok (leads.foldr Lead.around text) := by
  induction leads generalizing levels with
  | nil => rw [nested, List.foldr_nil]
  | cons lead leads ih =>
    cases levels with
    | zero => cases enough
    | succ levels =>
      rw [nested, ih (Nat.le_of_succ_le_succ enough)]
      rfl

/-- One level too few is reported at the embed that needs it. -/
theorem nested_of_lt {levels : Nat} (deep : levels < leads.length) :
    nested levels leads text = .error (.serialize .embedDepth leads[levels].source) := by
  induction leads generalizing levels with
  | nil => cases deep
  | cons lead leads ih =>
    cases levels with
    | zero => rfl
    | succ levels =>
      rw [nested, ih (Nat.lt_of_succ_lt_succ deep)]
      rfl

/-- What a store supplies is loaded from it. -/
theorem load_reaches {path : String}
    (served : renderer.supplied? s (renderer.config.resolve path) = some nodes) :
    Assured (renderer.Agrees s) (· = (.ok nodes, data))
      ((Evaluation.ofAttempt (renderer.load (renderer.config.resolve path))).runOn data) := by
  rw [Evaluation.runOn_ofAttempt]
  refine (renderer.load_assured s _).bind fun result loaded => .done ?_
  rw [served] at loaded
  cases result with
  | ok nodes =>
    cases loaded
    rfl
  | error why => cases loaded

/-- At every depth a chain comes to what the levels that are left there allow. -/
theorem Chain.reaches (chain : renderer.Chain s depth path data leads text)
    (within : depth ≤ maxEmbedDepth) :
    Reaches (renderer.Agrees s) Eq
      (Evaluation.ofAttempt (renderer.load (renderer.config.resolve path)) >>=
        (renderer.scopeAt depth).serialize) data (nested (maxEmbedDepth - depth) leads text) := by
  induction chain with
  | last served texts =>
    refine Evaluation.assured_bind (load_reaches served) ?_
    rw [nested]
    exact texts.comes.finished
  | @link depth path text data nodes lead leads served first rest ih =>
    refine Evaluation.assured_bind (load_reaches served) ?_
    by_cases free : depth < maxEmbedDepth
    · have level : maxEmbedDepth - depth = maxEmbedDepth - (depth + 1) + 1 := by omega
      rw [level, nested]
      refine (first.comes ?_).finished
      rw [render_scopeAt renderer free]
      exact ih free
    · rw [Nat.sub_eq_zero_of_le (Nat.le_of_not_lt free), nested]
      have refused : Reaches (renderer.Agrees s) Eq
          ((renderer.scopeAt depth).embedding.render lead.source lead.path) lead.data
          (.error (.serialize .embedDepth lead.source)) := by
        rw [render_scopeAt_of_le renderer (Nat.le_of_not_lt free)]
        exact .throw _
      exact (first.comes refused).finished

/-- Templates may be embedded in each other so many deep and no deeper. Take any chain of templates
that are supplied, each of them text and one embed of the next, wherever in conditionals, loops and
strings this may lie, and the last of them text. It is rendered to the texts inside of each other
when it has at most that many embeds, however others interrupt it. Otherwise it fails, and the error
points at the embed in the template with that many around. -/
theorem embed_limit (chain : renderer.Chain s 0 path data leads text) :
    (leads.length ≤ maxEmbedDepth → Assured (renderer.Agrees s)
      (·.1 = .ok (leads.foldr Lead.around text)) ((renderer.renderPath path).runOn data)) ∧
    (∀ deep : maxEmbedDepth < leads.length, Assured (renderer.Agrees s)
      (·.1 = .error (.serialize .embedDepth leads[maxEmbedDepth].source))
        ((renderer.renderPath path).runOn data)) ∧
    ((∃ printed, ((Session.mk renderer s).renderPath path data).1 = .ok printed) ↔
      leads.length ≤ maxEmbedDepth) := by
  have reaches : Assured (renderer.Agrees s) (·.1 = nested maxEmbedDepth leads text)
      ((renderer.renderPath path).runOn data) :=
    (chain.reaches (Nat.zero_le _)).mono fun _ ended => ended.eq
  have printed := (reaches s (.refl renderer s)).run.1
  refine ⟨fun enough => ?_, fun deep => ?_, ?_⟩
  · rwa [nested_of_le enough] at reaches
  · rwa [nested_of_lt deep] at reaches
  · rw [Session.renderPath_result, printed]
    obtain deep | enough := Nat.lt_or_ge maxEmbedDepth leads.length
    · rw [nested_of_lt deep]
      exact iff_of_false nofun (Nat.not_le_of_lt deep)
    · rw [nested_of_le enough]
      exact iff_of_true ⟨_, rfl⟩ enough

/-! Dolls inside of each other: a template that goes on with what is inside of the doll it is given,
by a loop, a condition and a string, down to one that holds no other. -/

/-- A doll with others inside. -/
private def doll : Nat → Value
  | 0 => .map [("path", .string "end")]
  | inside + 1 => .map [("path", .string "t"), ("rest", .array [doll inside])]

private def dollPath : Nat → String
  | 0 => "end"
  | _ + 1 => "t"

private def dollData (inside : Nat) : Value := .map
  [("x", doll inside), ("index", .int 0), ("isFirst", .bool true), ("isLast", .bool true)]

private def dollSource : Source := ⟨"t", 0, 0, 0, 0, []⟩

private def dollLead (inside : Nat) : Lead :=
  ⟨"(", dollPath inside, dollSource, dollData inside, ")"⟩

private def dollLeads : Nat → List Lead
  | 0 => []
  | inside + 1 => dollLead inside :: dollLeads inside

private def dollField (name : String) : Node :=
  .identifier dollSource ⟨[.key "x", .key name]⟩

private def dollString : Node := .tag dollSource "get"
  [.interpolated dollSource [.embed dollSource (dollField "path"), .raw dollSource [41]]] none

private def dollChoice : Node :=
  .conditional dollSource (.identifier dollSource ⟨[.key "isLast"]⟩) [dollString] []

private def dollLoop : Node :=
  .loop dollSource (.literal dollSource (.string "x")) (dollField "rest")
    [.raw dollSource [40], dollChoice]

private def dollRenderer : Renderer := Renderer.plaintext (.memory [("end", [120])])

private def dollStore : Store := Store.empty.keep "t" [dollLoop]

private theorem settled_doll (inside : Nat) : (doll inside).Settled := by
  refine Value.settled_of_whole ?_
  induction inside with
  | zero => rfl
  | succ inside ih => simp [doll, Value.needsResolution, Value.anyEntry, Value.anyItem, ih]

private theorem gives_identifier (scope : Scope) {path : Path} {value : Value}
    (there : data.get path = value) (settled : value.Settled) :
    Evaluation.Gives (resolved (scope.render (.identifier dollSource path))) data value := by
  have found : Evaluation.Gives (scope.render (.identifier dollSource path)) data value := by
    rw [Scope.render, ← there]
    exact Evaluation.Gives.bind (a := data) rfl (.pure _)
  exact found.bind (.ofAttempt settled)

private theorem assured_of_gives {e : Evaluation α} {a : α} (gives : Evaluation.Gives e data a) :
    Assured I (· = (.ok a, data)) (e.runOn data) := by
  rw [gives]
  exact .done rfl

private theorem gives_dollLoop (scope : Scope) (inside : Nat) :
    Evaluation.Gives (scope.plan dollLoop) (dollData (inside + 1))
      (.each [.raw dollSource [40], dollChoice] "x" [doll inside]) := by
  have key : Evaluation.Gives (resolved (scope.render (.literal dollSource (.string "x"))))
      (dollData (inside + 1)) (.string "x") := by
    rw [Scope.render]
    exact .ofAttempt (Value.settled_string "x")
  have others : (Value.array [doll inside]).Settled := by
    rw [Value.Settled, Value.resolve, Value.resolveItems_of_settled
      (List.forall_mem_singleton.mpr (settled_doll inside)), Routine.joinAll_done]
    rfl
  have rest : Evaluation.Gives (resolved (scope.render (dollField "rest"))) (dollData (inside + 1))
      (.array [doll inside]) := gives_identifier scope rfl others
  exact key.bind (rest.bind (.pure _))

private theorem gives_dollChoice (scope : Scope) (inside : Nat) :
    Evaluation.Gives (scope.plan dollChoice) (dollData inside) (.once [dollString]) :=
  (gives_identifier scope rfl (Value.settled_of_whole rfl)).bind (.pure _)

private theorem dolls_lead (I : Store → Prop) {scope : Scope}
    (known : scope.tags.find? "get" = some Tags.verbatim) (inside : Nat) :
    Leads I scope (dollData (inside + 1)) [dollLoop] (dollLead inside) := by
  have path : Evaluation.Gives (resolved (scope.render (dollField "path"))) (dollData inside)
      (.string (dollPath inside)) :=
    gives_identifier scope (by cases inside <;> rfl) (Value.settled_string _)
  have embed : Leads I scope (dollData inside) [.embed dollSource (dollField "path")]
      ⟨"", dollPath inside, dollSource, dollData inside, ""⟩ := .embed (assured_of_gives path) rfl
  have opened : Utf8.decode? [40] = some "(" := Utf8.decode?_encodeChars ['(']
  have closed : Utf8.decode? [41] = some ")" := Utf8.decode?_encodeChars [')']
  have string : Leads I scope (dollData inside) [dollString] _ := .get known (.behind closed embed)
  have choice : Leads I scope (dollData inside) [dollChoice] _ :=
    .taken rfl (assured_of_gives (gives_dollChoice scope inside)) string
  exact .item rfl (assured_of_gives (gives_dollLoop scope inside)) (.before opened choice)

private theorem dolls_chain (inside depth : Nat) : dollRenderer.Chain dollStore depth
    (dollPath inside) (dollData inside) (dollLeads inside) "x" := by
  induction inside generalizing depth with
  | zero =>
    have served : dollRenderer.supplied? dollStore "end" =
        some (Grammar.Plain.parse ⟨"end", [120]⟩) := by rfl
    have written : Utf8.decode? [120] = some "x" := Utf8.decode?_encodeChars ['x']
    have texts : Texts (Grammar.Plain.parse ⟨"end", [120]⟩) ("x" ++ "") := .cons written .nil
    exact .last served texts
  | succ inside ih =>
    have served : dollRenderer.supplied? dollStore "t" = some [dollLoop] := rfl
    exact .link served (dolls_lead _ rfl inside) (ih (depth + 1))

/-- One template that embeds itself as often as its data say: 32 times give a text, and 33 times an
error. -/
theorem embed_limit_dolls :
    dollRenderer.Chain dollStore 0 "t" (dollData 32) (dollLeads 32) "x" ∧
      Assured (dollRenderer.Agrees dollStore)
        (·.1 = .ok ((dollLeads 32).foldr Lead.around "x"))
        ((dollRenderer.renderPath "t").runOn (dollData 32)) ∧
      dollRenderer.Chain dollStore 0 "t" (dollData 33) (dollLeads 33) "x" ∧
      Assured (dollRenderer.Agrees dollStore) (·.1 = .error (.serialize .embedDepth dollSource))
        ((dollRenderer.renderPath "t").runOn (dollData 33)) := by
  have fits : (dollLeads 32).length = maxEmbedDepth := rfl
  have deep : maxEmbedDepth < (dollLeads 33).length := by decide
  obtain ⟨printed, -, -⟩ := embed_limit (dolls_chain 32 0)
  obtain ⟨-, refused, -⟩ := embed_limit (dolls_chain 33 0)
  exact ⟨dolls_chain 32 0, printed fits.le, dolls_chain 33 0, refused deep⟩

end Renderer

end Stencil
