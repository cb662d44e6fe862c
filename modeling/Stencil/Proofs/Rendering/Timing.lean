import Stencil.Proofs.Rendering.Inlining
import Stencil.Proofs.Value.Timeless
import Stencil.Tags.Probe

/-! # Timing cannot be observed

Calls that suspend, values that tags defer and pending values of the data may take any number of
suspensions. Whatever that number is, and however the siblings of a loop or of a template take turns
because of it, rendering ends with the same text and the same data, or fails in any case.
-/

namespace Stencil

open Attempt (Transfers)
open Comparison (Related)
open Routine (Assured Outcome)

variable {σ α β : Type}

/-! ## Ends up to delays -/

/-- Both fail, or both succeed with related results, and with data that differ in their delays
only. -/
inductive EndAlike (V : α → β → Prop) : Except Error α × Value → Except Error β × Value → Prop
  | ok {a : α} {b : β} {x y : Value} (same : V a b) (left : x.timeless = y.timeless) :
      EndAlike V (.ok a, x) (.ok b, y)
  | error (why why' : Error) (x y : Value) : EndAlike V (.error why, x) (.error why', y)

/-- On data that differ in their delays only the actions do the same up to delays. -/
def HostAction.Timeless (action action' : HostAction) : Prop :=
  ∀ x y : Value, x.timeless = y.timeless →
    EndAlike (fun v w => v.timeless = w.timeless) (action x) (action' y)

/-! ## Paces -/

/-- The routine only pauses; how often may depend on the state. -/
inductive Routine.Idle : Routine σ α → Prop
  | done (a : α) : Idle (.done a)
  | pause {r : Routine σ α} (rest : Idle r) : Idle (.pause r)
  | read {next : σ → Routine σ α} (rest : ∀ s, Idle (next s)) : Idle (.read next)

theorem Routine.Idle.assured {I : σ → Prop} {r : Routine σ α} (idle : Idle r) :
    Assured I (fun _ => True) r := by
  induction idle with
  | done a => exact .done trivial
  | pause _ ih => exact fun s kept => .pause kept ih
  | read _ ih => exact fun s kept => .read (ih s s kept)

/-- How long calls are held up, and how long the values that calls defer take. -/
structure Pace where
  hold : Call → Routine Store Unit
  idle : ∀ call, (hold call).Idle
  delay : Call → Handle → Nat

namespace Pace

theorem idle_suspend (n : Nat) : (Tags.suspend n).Idle := by
  induction n with
  | zero => exact .done ()
  | succ n ih => exact .pause ih

/-- The pace that a call asks for with its first parameter. -/
def asked : Pace where
  hold call := Tags.suspend (Tags.ticks call 0)
  idle _ := idle_suspend _
  delay call _ := Tags.ticks call 0

/-- Holds up the call, logs the second parameter and gives it. -/
def wait (pace : Pace) : Handler := fun call => do
  call.requireCount 2
  Evaluation.ofAttempt ((pace.hold call).bind fun _ => .done (.ok ()))
  Evaluation.store fun s => ((), s.write (call.parameter 1).text)
  return call.parameter 1

/-- Defers the second parameter, which is logged when it is there. -/
def defer (pace : Pace) : Handler := fun call => do
  call.requireCount 2
  let handle ← Evaluation.store Store.draw
  return .pending handle (pace.delay call handle) (some (call.parameter 1).text)
    (.ok (call.parameter 1))

theorem wait_asked : asked.wait = Tags.wait := rfl

theorem defer_asked : asked.defer = Tags.defer := by
  funext call
  unfold defer Tags.defer Tags.deferred asked
  rfl

def tags (pace : Pace) : Registry :=
  Tags.builtin.registerAll [("wait", pace.wait), ("defer", pace.defer)]

variable {renderer : Renderer} {s : Store} {D : Value → Value → Prop}
  {kept : Value.KeptByAccess D} (pace pace' : Pace)

theorem wait_transfers : (renderer.transfers s kept).Handlers pace.wait pace'.wait := by
  intro a b same
  have held (pace : Pace) (call : Call) : Assured (renderer.Agrees s)
      (fun result : Except Error Unit => result.toOption = some ())
      ((pace.hold call).bind fun _ => .done (.ok ())) :=
    (pace.idle call).assured.bind fun _ _ => .done rfl
  have logged (call : Call) : Assured (renderer.Agrees s)
      (fun result : Except Error Unit => result.toOption = some ())
      ((Routine.step fun t => ((), t.write (call.parameter 1).text)).bind fun _ =>
        .done (.ok ())) :=
    Assured.bind (P := fun _ => True) (.step (fun _ _ => trivial) fun t agrees =>
      Renderer.Agrees.lasting renderer s t _ agrees rfl rfl) fun _ _ => .done rfl
  unfold wait
  apply (same.requireCount 2).bind
  intro _ _ _
  have holds := Transfers.of_toOption (V := Eq) (held pace a) (held pace' b) fun _ _ => rfl
  apply Related.bind (.ofAttempt holds)
  intro _ _ _
  have logs := Transfers.of_toOption (V := Eq) (logged a) (logged b) fun _ _ => rfl
  apply Related.bind (.ofAttempt logs)
  intro _ _ _
  rw [same.parameter 1]
  exact .pure rfl

theorem defer_transfers : (renderer.transfers s kept).Handlers pace.defer pace'.defer := by
  intro a b same
  have drawn : Assured (renderer.Agrees s)
      (fun result : Except Error Handle => ∃ handle, result = .ok handle ∧ ∀ _ : Handle, True)
      ((Routine.step Store.draw).bind fun handle => .done (.ok handle)) :=
    Assured.bind (P := fun _ => True) (.step (fun _ _ => trivial) fun t agrees =>
      Renderer.Agrees.lasting renderer s t _ agrees rfl rfl) fun handle _ =>
        .done ⟨handle, rfl, fun _ => trivial⟩
  unfold defer
  apply (same.requireCount 2).bind
  intro _ _ _
  have draws := Transfers.of_succeeds (V := fun _ _ => True) (drawn.mono fun _ _ => trivial) drawn
  apply Related.bind (.ofAttempt draws)
  intro handle handle' _
  rw [same.parameter 1]
  refine .pure ?_
  change Value.computed? _ = Value.computed? _
  rw [Value.computed?, Value.computed?]

theorem tags_transfers : (renderer.transfers s kept).Registries pace.tags pace'.tags :=
  (Tags.builtin_related Renderer.transfers_dates).registerAll <|
    .cons ⟨rfl, wait_transfers pace pace'⟩ <| .cons ⟨rfl, defer_transfers pace pace'⟩ .nil

end Pace

/-! ## Renders -/

/-- Host nodes that agree up to delays are carried over. -/
theorem HostAction.Timeless.transfers {renderer : Renderer} {s : Store}
    {action action' : HostAction} (same : Timeless action action') :
    (renderer.transfers s Value.keptByAccess_timeless).Hosts action action' := by
  intro x y data
  have ends := same x y data
  change Transfers _ _ (.of ((action x).1.map (·, (action x).2)))
    (.of ((action' y).1.map (·, (action' y).2)))
  generalize action x = left at ends ⊢
  generalize action' y = right at ends ⊢
  cases ends with
  | error why why' _ _ => exact .error why _
  | ok same left =>
    refine .ok ⟨?_, left⟩
    change Value.computed? _ = Value.computed? _
    rw [← Value.computed?_timeless, same, Value.computed?_timeless]

theorem HostAction.Timeless.symm {action action' : HostAction} (same : Timeless action action') :
    Timeless action' action := by
  intro x y data
  have ends := same y x data.symm
  generalize action y = left at ends ⊢
  generalize action' x = right at ends ⊢
  cases ends with
  | error why why' x y => exact .error why' why y x
  | ok same left => exact .ok same.symm left.symm

namespace Renderer

variable {renderer : Renderer} {s : Store}

/-- Two scopes in one place whose suspending tags take two paces. They lie at some depth of the
renderer, or have no renderer. -/
inductive Paced (renderer : Renderer) (pace pace' : Pace) : Scope → Scope → Prop
  | within (depth : Nat) : Paced renderer pace pace' ((renderer.withTags pace.tags).scopeAt depth)
      ((renderer.withTags pace'.tags).scopeAt depth)
  | alone (depth : Nat) : Paced renderer pace pace' ⟨pace.tags, .unavailable, depth⟩
      ⟨pace'.tags, .unavailable, depth⟩

variable {pace pace' : Pace} {a b : Scope}

theorem Paced.symm (paced : renderer.Paced pace pace' a b) : renderer.Paced pace' pace b a := by
  cases paced with
  | within depth => exact .within depth
  | alone depth => exact .alone depth

/-- Whatever templates come out of the store, their host nodes do not look at delays. -/
def SuppliesTimeless (renderer : Renderer) (s : Store) : Prop :=
  ∀ path nodes, renderer.supplied? s path = some nodes →
    Node.LikeAll HostAction.Timeless nodes nodes

theorem hosts_transfers {nodes nodes' : List Node}
    (like : Node.LikeAll HostAction.Timeless nodes nodes') :
    Node.LikeAll (renderer.transfers s Value.keptByAccess_timeless).Hosts nodes nodes' :=
  like.imp fun _ _ same => same.transfers

/-- Scopes that differ in their pace only are carried over. -/
theorem Paced.transfers (paced : renderer.Paced pace pace' a b)
    (supplied : renderer.SuppliesTimeless s) :
    (renderer.transfers s Value.keptByAccess_timeless).Scopes a b := by
  cases paced with
  | within depth =>
    refine ⟨Pace.tags_transfers pace pace', ?_⟩
    exact embedding_transfers (Pace.tags_transfers pace pace')
      (fun _ _ there => hosts_transfers (supplied _ _ there)) (Nat.le_refl (maxEmbedDepth - depth))
  | alone depth => exact ⟨Pace.tags_transfers pace pace', fun _ _ => transfers_throw _ _⟩

/-- Rendering ends at any pace, and what the store supplies stays as it is. -/
theorem Paced.ends (paced : renderer.Paced pace pace' a b) (supplied : renderer.SuppliesTimeless s)
    {nodes : List Node} (like : Node.LikeAll HostAction.Timeless nodes nodes) (data : Value) :
    Assured (renderer.Agrees s) (fun _ => True) ((a.serialize nodes).runOn data) := by
  have related := Scope.serialize_related (paced.transfers supplied) (hosts_transfers like)
  exact Evaluation.runOn_assured (related data data rfl).ends

/-- How often calls and values suspend makes no difference. Any two runs of the same nodes, up to
host nodes that do not look at delays themselves, on data that differ in their delays only, where
the suspending tags take any two paces, fail both, or end with the same text and with data that
differ in their delays only. Others may run at the same time, as long as the templates and the
patterns that come out of the store stay the same. -/
theorem serialize_timeless {renderer : Renderer} {s : Store} {pace pace' : Pace} {a b : Scope}
    (paced : renderer.Paced pace pace' a b) (supplied : renderer.SuppliesTimeless s)
    {nodes nodes' : List Node} (like : Node.LikeAll HostAction.Timeless nodes nodes')
    {data data' : Value} (same : data.timeless = data'.timeless)
    {one other : Except Error String × Value}
    (first : Outcome (renderer.Agrees s) ((a.serialize nodes).runOn data) one)
    (second : Outcome (renderer.Agrees s) ((b.serialize nodes').runOn data') other) :
    EndAlike Eq one other := by
  have there := Scope.serialize_related (paced.transfers supplied) (hosts_transfers like)
    data data' same
  have back := Scope.serialize_related (paced.symm.transfers supplied)
    (hosts_transfers (like.flip fun _ _ same => same.symm)) data' data same.symm
  obtain ⟨result, after⟩ := one
  obtain ⟨result', after'⟩ := other
  cases result with
  | ok text =>
    have sure := there.carries _ (Evaluation.outcome_of_runOn first)
    obtain ⟨⟨text', left⟩, ended, rfl, same⟩ := (Evaluation.runOn_assured sure).of_outcome second
    cases result' with
    | error why => cases ended
    | ok text' =>
      cases ended
      exact .ok rfl same
  | error why =>
    cases result' with
    | error why' => exact .error why why' after after'
    | ok text' =>
      have sure := back.carries _ (Evaluation.outcome_of_runOn second)
      obtain ⟨_, ended, _⟩ := (Evaluation.runOn_assured sure).of_outcome first
      cases ended

/-- A name and a loop of waits give the same text, whether the data are late or not. -/
theorem serialize_timeless_wait :
    let renderer := Renderer.plaintext (.memory [])
    let source : Source := ⟨"t", 0, 0, 0, 0, []⟩
    let hurried : Pace := ⟨fun _ => .done (), fun _ => .done (), fun _ _ => 7⟩
    let name : Node := .identifier source ⟨[.key "name"]⟩
    let wait : Node := .tag source "wait" [.literal source (.int 5), name] none
    let items : Node := .identifier source ⟨[.key "items"]⟩
    let nodes : List Node := [name, .loop source (.literal source (.string "item")) items [wait]]
    let data (delay : Nat) : Value := .map
      [("name", .pending (.host 0) delay none (.ok (.string "Ada"))),
        ("items", .pending (.host 1) delay none (.ok (.array [.null, .null])))]
    EndAlike Eq
      (((((renderer.withTags Pace.asked.tags).scopeAt 0).serialize nodes).runOn (data 3)).run
        .empty).1
      (((((renderer.withTags hurried.tags).scopeAt 0).serialize nodes).runOn (data 0)).run
        .empty).1 := by
  intro renderer source hurried name wait items nodes data
  have supplied : renderer.SuppliesTimeless .empty := by
    intro path nodes there
    cases there
  have like : Node.LikeAll HostAction.Timeless nodes nodes :=
    .cons (.identifier _ _) (.cons (.loop _ (.literal _ _) (.identifier _ _)
      (.cons (.tag _ _ (.cons (.literal _ _) (.cons (.identifier _ _) .nil))) .nil)) .nil)
  have there : renderer.Paced .asked hurried _ _ := .within 0
  exact serialize_timeless there supplied like (show (data 3).timeless = (data 0).timeless from rfl)
    ((there.ends supplied like (data 3)).outcome_run (.refl _ _))
    ((there.symm.ends supplied like (data 0)).outcome_run (.refl _ _))

end Renderer

end Stencil
