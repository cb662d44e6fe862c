import Stencil.Proofs.Rendering.Concurrence
import Stencil.Proofs.Rendering.Embedding
import Stencil.Proofs.Rendering.Recursion
import Stencil.Proofs.Tags.Fair

/-! # Steady evaluation

A tag is steady when its calls concur with themselves wherever their bodies do: whether it succeeds,
and with what, does not depend on when others go on. It may look at all that a call shows it, write
to the data and to the log, wait, and give what is deferred. The tags there are do so, and with
steady tags the evaluation of every node is steady, at every depth of a renderer.
-/

namespace Stencil

open Comparison (Related)
open Routine (Assured)

variable {I : Store → Prop} {lasting : Store.Lasting I} {scope : Scope}

/-- Calls of the handler concur with themselves as soon as their bodies do. -/
def Handler.Steady (lasting : Store.Lasting I) (handler : Handler) : Prop :=
  ∀ call : Call, (∀ body ∈ call.body, (Comparison.concurring lasting).Bodies body body) →
    (Comparison.concurring lasting).Related (Comparison.concurring lasting).Val (handler call)
      (handler call)

/-- The tags of the scope are steady, and so is what embedded templates render to. -/
structure Scope.Steady (lasting : Store.Lasting I) (scope : Scope) : Prop where
  tags : scope.tags.Each (Handler.Steady lasting)
  embedding : ∀ source path, (Comparison.concurring lasting).Related Eq
    (scope.embedding.render source path) (scope.embedding.render source path)

/-! ## Nodes -/

section Parts

variable {C : Comparison} {f : Node → Evaluation Value}

theorem mapM_related {nodes : List Node}
    (each : ∀ node ∈ nodes, C.Related C.Val (f node) (f node)) :
    C.Related (List.Forall₂ C.Val) (nodes.mapM f) (nodes.mapM f) := by
  induction nodes with
  | nil => exact .pure .nil
  | cons node nodes ih =>
    obtain ⟨first, others⟩ := List.forall_mem_cons.mp each
    rw [List.mapM_cons]
    exact first.bind fun v w same => (ih others).bind fun vs ws rest => .pure (.cons same rest)

theorem mapM_resolved_related {nodes : List Node}
    (each : ∀ node ∈ nodes, C.Related C.Val (f node) (f node)) :
    C.Related Eq (nodes.mapM fun node => resolved (f node))
      (nodes.mapM fun node => resolved (f node)) := by
  induction nodes with
  | nil => exact .pure rfl
  | cons node nodes ih =>
    obtain ⟨first, others⟩ := List.forall_mem_cons.mp each
    rw [List.mapM_cons]
    apply (resolved_related first).bind
    rintro v _ rfl
    apply (ih others).bind
    rintro vs _ rfl
    exact .pure rfl

/-- Branches are steady where their conditions and their bodies are. -/
theorem branchesBy_related {branches : List (Node × List Node)}
    (conditions : ∀ branch ∈ branches, C.Related C.Val (f branch.1) (f branch.1))
    (bodies : ∀ branch ∈ branches, ∀ node ∈ branch.2, C.Related C.Val (f node) (f node)) :
    C.Related C.Val (branchesBy f branches) (branchesBy f branches) := by
  induction branches with
  | nil => exact .pure (C.refl _)
  | cons branch rest ih =>
    obtain ⟨first, others⟩ := List.forall_mem_cons.mp conditions
    obtain ⟨block, blocks⟩ := List.forall_mem_cons.mp bodies
    apply (resolved_related first).bind
    rintro value _ rfl
    split
    · exact forked_related (mapM_related block)
    · exact ih others blocks

end Parts

namespace Scope.Steady

theorem likeAll_self (nodes : List Node) : Node.LikeAll Eq nodes nodes :=
  Node.likeAll_refl (fun _ => rfl) nodes

/-- A call of a steady tag concurs with itself when its parameters and its body do. -/
theorem call (steady : scope.Steady lasting) (source : Source) (name : String)
    {parameters : Evaluation (List Value)} {body : Option Body}
    (given : (Comparison.concurring lasting).Related Eq parameters parameters)
    (bodies : ∀ block ∈ body, (Comparison.concurring lasting).Bodies block block) :
    (Comparison.concurring lasting).Related (Comparison.concurring lasting).Val
      (scope.call source name parameters body) (scope.call source name parameters body) := by
  unfold Scope.call
  cases found : scope.tags.find? name with
  | none => exact .throw _
  | some handler =>
    apply given.bind
    rintro values _ rfl
    exact steady.tags name handler found _ bodies

/-- With steady tags a node is evaluated steadily. -/
theorem render (steady : scope.Steady lasting) (node : Node) :
    (Comparison.concurring lasting).Related (Comparison.concurring lasting).Val
      (scope.render node) (scope.render node) := by
  induction node using Node.child_induction with
  | step node ih =>
    have all {nodes : List Node} (children : ∀ inner ∈ nodes, node.Child inner) :=
      mapM_related fun inner member => ih inner (children inner member)
    rw [render_eq_step]
    cases node with
    | raw source data => exact .pure rfl
    | literal source constant => exact .pure rfl
    | interpolated source nodes =>
      apply (finished_related (likeAll_self nodes) (all fun _ => .interpolated)).bind
      rintro text _ rfl
      exact .pure rfl
    | identifier source path =>
      apply Related.data.bind
      rintro x _ rfl
      exact .pure rfl
    | infixOp source op left right =>
      apply (resolved_related (ih left (.left _ _ _ _))).bind
      rintro a _ rfl
      apply (resolved_related (ih right (.right _ _ _ _))).bind
      rintro b _ rfl
      exact .pure rfl
    | negation source operand =>
      apply (resolved_related (ih operand (.operand _ _))).bind
      rintro value _ rfl
      exact .pure rfl
    | conditional source condition body others =>
      apply branchesBy_related
      · exact List.forall_mem_cons.mpr ⟨ih _ (.condition _ _ _ _),
          fun branch among => ih _ (.otherCondition among)⟩
      · exact List.forall_mem_cons.mpr ⟨fun inner member => ih inner (.block member),
          fun branch among inner member => ih inner (.otherBlock among member)⟩
    | loop source key data body =>
      exact iterated_related source (ih key (.loopKey _ _ _ _)) (ih data (.loopData _ _ _ _))
        (all fun _ => .loopBody)
    | embed source path => exact embed_related steady.embedding source (ih path (.embedPath _ _))
    | tag source name parameters body =>
      apply steady.call source name
      · exact mapM_resolved_related fun inner member => ih inner (.parameter member)
      · intro block there
        obtain ⟨nodes, rfl, rfl⟩ := Option.map_eq_some_iff.mp there
        have values := all fun _ => Node.Child.body
        exact ⟨finished_related (likeAll_self nodes) values, values_related values⟩
    | host source number action => exact Comparison.hosts_self (fun _ _ => .rfl) action

/-- Nodes rendered twice by a steady scope give agreeing values. -/
theorem renderAll (steady : scope.Steady lasting) (nodes : List Node) :
    (Comparison.concurring lasting).Related (List.Forall₂ (Comparison.concurring lasting).Val)
      (scope.renderAll nodes) (scope.renderAll nodes) := by
  rw [renderAll_eq_mapM]
  exact mapM_related fun node _ => steady.render node

/-- With steady tags a template is rendered steadily. -/
theorem serialize (steady : scope.Steady lasting) (nodes : List Node) :
    (Comparison.concurring lasting).Related Eq (scope.serialize nodes) (scope.serialize nodes) :=
  finished_related (likeAll_self nodes) (steady.renderAll nodes)

end Scope.Steady

/-! ## Tags -/

namespace Tags

/-- What the built-in tags compare with under every comparison that reads date patterns alike. -/
theorem builtin_steady (dates : (Comparison.concurring lasting).Dates) :
    builtin.Each (Handler.Steady lasting) := by
  intro name handler found call bodies
  have handlers := builtin_related dates name
  rw [found] at handlers
  cases handlers with
  | some same => exact same call call (.self bodies)

section Probes

variable {call : Call}

/-- A step on the store is steady when all stores that are possible give it related answers. -/
theorem store_steady {α : Type} {V : α → α → Prop} {f : Store → α × Store}
    (keeps : ∀ s, I s → I (f s).2) (alike : ∀ s t, I s → I t → V (f s).1 (f t).1) :
    (Comparison.concurring lasting).Related V (Evaluation.store f) (Evaluation.store f) := by
  have answers : Assured I (fun result : Except Error α => ∃ s, I s ∧ result = .ok (f s).1)
      ((Routine.step f).bind fun a => .done (.ok a)) :=
    Assured.bind (P := fun a => ∃ s, I s ∧ a = (f s).1) (.step (fun s kept => ⟨s, kept, rfl⟩) keeps)
      fun _ ⟨s, kept, same⟩ => .done ⟨s, kept, by rw [same]⟩
  refine .ofAttempt (Attempt.Concur.of_assured answers answers ?_)
  rintro _ _ ⟨s, kept, rfl⟩ ⟨t, kept', rfl⟩
  exact .some (alike s t kept kept')

theorem suspend_steady (n : Nat) : (Comparison.concurring lasting).Related (fun _ _ => True)
    (Evaluation.ofAttempt ((suspend n).bind fun _ => .done (.ok ())))
    (Evaluation.ofAttempt ((suspend n).bind fun _ => .done (.ok ()))) := by
  have ends : Assured I (fun result : Except Error Unit => result = .ok ())
      ((suspend n).bind fun _ => .done (.ok ())) :=
    (suspend_assured n).bind fun _ _ => .done rfl
  refine .ofAttempt (Attempt.Concur.of_assured ends ends ?_)
  rintro _ _ rfl rfl
  exact .some trivial

theorem draw_steady : (Comparison.concurring lasting).Related (fun _ _ => True)
    (Evaluation.store Store.draw) (Evaluation.store Store.draw) :=
  store_steady (fun s kept => lasting s _ kept rfl rfl) fun _ _ _ _ => trivial

/-- Whatever handle it is given, a deferred value computes to the same. -/
theorem deferred_steady (delay : Nat) (note : Option String) (outcome : Except Error Value) :
    (Comparison.concurring lasting).Related (Comparison.concurring lasting).Val
      (deferred delay note outcome) (deferred delay note outcome) := by
  refine draw_steady.bind fun handle handle' _ => .pure ?_
  change Value.computed? _ = Value.computed? _
  cases outcome <;> rw [Value.computed?, Value.computed?]

/-- Tags stay steady when those for watching are added. -/
theorem withProbes_steady {tags : Registry} (steady : tags.Each (Handler.Steady lasting)) :
    (withProbes tags).Each (Handler.Steady lasting) := by
  refine steady.registerAll ?_
  simp only [List.forall_mem_cons, List.not_mem_nil, false_implies, implies_true, and_true]
  refine ⟨?wait, ?defer, ?boom, ?fail, ?repeated, ?echo, ?debug, ?inspect, ?blob, ?later, ?list,
    ?twice, ?nodes, ?depth, ?knows, ?dump⟩
  case wait =>
    intro call bodies
    refine ((Comparison.Calls.self bodies).requireCount 2).bind fun _ _ _ => ?_
    refine (suspend_steady _).bind fun _ _ _ => ?_
    refine Related.bind (V := fun _ _ => True) ?_ fun _ _ _ => .pure rfl
    exact store_steady (fun s kept => lasting s _ kept rfl rfl) fun _ _ _ _ => trivial
  case defer =>
    intro call bodies
    exact ((Comparison.Calls.self bodies).requireCount 2).bind fun _ _ _ => deferred_steady _ _ _
  case boom => exact fun call _ => deferred_steady _ _ _
  case fail => exact fun call bodies => (Comparison.Calls.self bodies).reject _
  case repeated =>
    intro call bodies
    exact ((Comparison.Calls.self bodies).requireCount 2).bind fun _ _ _ => .pure rfl
  case later =>
    refine fun call _ => draw_steady.bind fun handle handle' _ => .pure ?_
    change Value.computed? _ = Value.computed? _
    rw [Value.computed?, Value.computed?]
  case twice =>
    intro call bodies
    have given := Comparison.Calls.self bodies
    refine (given.requireCount 0).bind fun _ _ _ => ?_
    apply given.bodyText.bind
    rintro first _ rfl
    apply given.bodyText.bind
    rintro second _ rfl
    exact .pure rfl
  case nodes =>
    intro call bodies
    exact (Comparison.Calls.self bodies).requireBody.bind fun _ _ same => same.values
  case dump =>
    intro call _
    apply Related.data.bind
    rintro data _ rfl
    exact .pure rfl
  all_goals exact fun call _ => .pure rfl

end Probes

end Tags

/-! ## Renderers -/

namespace Renderer

variable {renderer : Renderer} {s : Store}

/-- The scopes that templates of the renderer are rendered in: one at each depth, and those without
a renderer to embed other templates. -/
inductive Provides (renderer : Renderer) : Scope → Prop
  | within (depth : Nat) : Provides renderer (renderer.scopeAt depth)
  | alone (depth : Nat) : Provides renderer ⟨renderer.tags, .unavailable, depth⟩

/-- Evaluations that concur while others keep to what a store supplies at the beginning. -/
abbrev concurring (renderer : Renderer) (s : Store) : Comparison :=
  .concurring (Agrees.lasting renderer s)

/-- The tags of the renderer are steady while others keep to what a store supplies. -/
abbrev SteadyTags (renderer : Renderer) (s : Store) : Prop :=
  renderer.tags.Each (Handler.Steady (Agrees.lasting renderer s))

theorem concurring_dates : (renderer.concurring s).Dates := by
  refine fun text => Tags.store_steady (fun _ agrees => agrees.patternOf text) ?_
  intro t t' agrees agrees'
  rw [agrees.patterns, agrees'.patterns]

/-- Loading a template twice gives agreeing parses. -/
theorem load_concurs (path : String) :
    Attempt.Concur (renderer.Agrees s) Eq (renderer.load path) (renderer.load path) :=
  .of_toOption (renderer.load_assured s path) (renderer.load_assured s path)

/-- Embedded templates are rendered steadily, however many may embed each other. -/
theorem SteadyTags.embedding (steady : renderer.SteadyTags s) (levels : Nat) (source : Source)
    (path : String) : (renderer.concurring s).Related Eq
      ((renderer.embedding levels).render source path)
      ((renderer.embedding levels).render source path) := by
  induction levels generalizing source path with
  | zero => exact .throw _
  | succ levels ih =>
    rw [render_embedding_succ]
    apply Related.bind (.ofAttempt (load_concurs _))
    rintro nodes _ rfl
    have inside : Scope.Steady (Agrees.lasting renderer s)
        ⟨renderer.tags, renderer.embedding levels, maxEmbedDepth - levels⟩ := ⟨steady, ih⟩
    exact inside.serialize nodes

/-- With steady tags every scope of the renderer is steady. -/
theorem Provides.steady (provided : renderer.Provides scope) (steady : renderer.SteadyTags s) :
    scope.Steady (Agrees.lasting renderer s) := by
  cases provided with
  | within depth => exact ⟨steady, steady.embedding _⟩
  | alone depth => exact ⟨steady, fun _ _ => .throw _⟩

/-- The built-in tags alone are steady. -/
theorem steadyTags_of_builtin (builtin : renderer.tags = Tags.builtin) (s : Store) :
    renderer.SteadyTags s := by
  rw [SteadyTags, builtin]
  exact Tags.builtin_steady concurring_dates

/-- The built-in tags with the probes are steady. -/
theorem steadyTags_of_probes (probes : renderer.tags = Tags.withProbes Tags.builtin) (s : Store) :
    renderer.SteadyTags s := by
  rw [SteadyTags, probes]
  exact Tags.withProbes_steady (Tags.builtin_steady concurring_dates)

end Renderer

end Stencil
