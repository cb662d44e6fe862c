import Mathlib
import Stencil.Proofs.Rendering.Embedding
import Stencil.Proofs.Rendering.Spelling

/-! # Embedding is inlining

An embedded template runs in a scope of its own, one level deeper, and is put together to one text
before the templates around it are. It shares their data. So wherever embedding a template succeeds
its nodes could stand in place of it: the text and the data afterwards are the same.
-/

namespace Stencil

open Attempt (Transfers)
open Comparison (Related)
open Routine (Assured Outcome)

variable {renderer : Renderer} {s : Store}

namespace Renderer

/-- The scope of a template that `depth` others lie around. -/
def scopeAt (renderer : Renderer) (depth : Nat) : Scope :=
  ⟨renderer.tags, renderer.embedding (maxEmbedDepth - depth), depth⟩

theorem scopeAt_zero (renderer : Renderer) : renderer.scopeAt 0 = renderer.scope := rfl

theorem render_embedding_succ (renderer : Renderer) (levels : Nat) (source : Source)
    (path : String) : (renderer.embedding (levels + 1)).render source path =
      Evaluation.ofAttempt (renderer.load (renderer.config.resolve path)) >>=
        Scope.serialize ⟨renderer.tags, renderer.embedding levels, maxEmbedDepth - levels⟩ := rfl

/-- An embedded template is loaded and rendered one level deeper. -/
theorem render_scopeAt (renderer : Renderer) {depth : Nat} (free : depth < maxEmbedDepth)
    (source : Source) (path : String) :
    (renderer.scopeAt depth).embedding.render source path =
      Evaluation.ofAttempt (renderer.load (renderer.config.resolve path)) >>=
        (renderer.scopeAt (depth + 1)).serialize := by
  have level : maxEmbedDepth - depth = maxEmbedDepth - (depth + 1) + 1 := by omega
  have inside : maxEmbedDepth - (maxEmbedDepth - (depth + 1)) = depth + 1 := by omega
  change (renderer.embedding (maxEmbedDepth - depth)).render source path = _
  rw [level, render_embedding_succ, inside]
  rfl

/-- At full depth no template can be embedded. -/
theorem render_scopeAt_of_le (renderer : Renderer) {depth : Nat} (full : maxEmbedDepth ≤ depth)
    (source : Source) (path : String) : (renderer.scopeAt depth).embedding.render source path =
      throw (.serialize .embedDepth source) := by
  change (renderer.embedding (maxEmbedDepth - depth)).render source path = _
  rw [Nat.sub_eq_zero_of_le full]
  rfl

/-- Scopes with the built-in tags transfer to those that lie inside of fewer templates. -/
theorem scopeAt_transfers (builtin : renderer.tags = Tags.builtin) (s : Store) {depth depth' : Nat}
    (less : depth' ≤ depth) : (renderer.transfers s Value.keptByAccess_eq).Scopes
      (renderer.scopeAt depth) (renderer.scopeAt depth') := by
  have registries : (renderer.transfers s Value.keptByAccess_eq).Registries renderer.tags
      renderer.tags := by
    rw [builtin]
    exact Tags.builtin_related transfers_dates
  refine ⟨registries, embedding_transfers registries ?_ (Nat.sub_le_sub_left less maxEmbedDepth)⟩
  exact fun _ nodes _ => Node.likeAll_refl (Comparison.hosts_self fun _ _ => .rfl) nodes

end Renderer

/-- A template embedded at a constant path gives one text. -/
theorem Scope.renderAll_embed (scope : Scope) (source place : Source) {constant : Literal}
    {path : String} (named : constant.value.asString = some path) :
    scope.renderAll [.embed source (.literal place constant)] =
      scope.embedding.render source path >>= fun text => return [.string text] := by
  have settled : resolved (scope.render (.literal place constant)) = pure constant.value := by
    unfold render resolved
    cases constant <;> rfl
  unfold renderAll render renderAll
  rw [embed_eq, settled, pure_bind, named]
  simp

namespace Renderer

variable {inlined : List Node} {path : String}

/-- An embedded template transfers to its nodes. -/
theorem embed_spelled (builtin : renderer.tags = Tags.builtin)
    (supplied : renderer.supplied? s (renderer.config.resolve path) = some inlined)
    {constant : Literal} (named : constant.value.asString = some path) (source place : Source)
    (depth : Nat) : (renderer.transfers s Value.keptByAccess_eq).Related
      (Spelled [.embed source (.literal place constant)] inlined)
      ((renderer.scopeAt depth).renderAll [.embed source (.literal place constant)])
      ((renderer.scopeAt depth).renderAll inlined) := by
  rw [Scope.renderAll_embed _ _ _ named]
  by_cases free : depth < maxEmbedDepth
  · rw [render_scopeAt renderer free, bind_assoc]
    apply Related.skip (load_transfers _).ends
    intro nodes possible
    have loaded := (renderer.load_assured s _).of_outcome possible
    rw [supplied] at loaded
    cases loaded
    have values := renderAll_spelled (scopeAt_transfers builtin s (Nat.le_succ depth))
      (Node.likeAll_refl (Comparison.hosts_self fun _ _ => .rfl) inlined)
    unfold Scope.serialize
    rw [finished_eq, bind_assoc, ← bind_pure ((renderer.scopeAt depth).renderAll inlined)]
    apply values.bind
    intro vs ws spelled
    have assured := spell_assured (Agrees.lasting renderer s) inlined vs
    apply Related.skip (assured.mono fun _ _ => trivial)
    intro text possible
    have same := assured.of_outcome possible
    refine .pure ⟨rfl, spelled.right, ?_⟩
    rw [← spelled.same, ← same]
    exact congrArg some String.append_empty
  · rw [render_scopeAt_of_le renderer (Nat.le_of_not_lt free)]
    exact transfers_throw _ _

/-- With the built-in tags rendering ends, and what the store supplies stays as it is. -/
theorem serialize_ends (builtin : renderer.tags = Tags.builtin) (s : Store) (depth : Nat)
    (nodes : List Node) (data : Value) : Assured (renderer.Agrees s) (fun _ => True)
      (((renderer.scopeAt depth).serialize nodes).runOn data) := by
  have related := Scope.serialize_related (scopeAt_transfers builtin s (Nat.le_refl depth))
    (Node.likeAll_refl (Comparison.hosts_self fun _ _ => .rfl) nodes)
  exact Evaluation.runOn_assured (related data data rfl).ends

/-- Where embedding a template succeeds its nodes can stand in place of it. -/
theorem inlined_spelled (builtin : renderer.tags = Tags.builtin)
    (supplied : renderer.supplied? s (renderer.config.resolve path) = some inlined)
    {constant : Literal} (named : constant.value.asString = some path) (source place : Source)
    (depth : Nat) (pre post : List Node) : (renderer.transfers s Value.keptByAccess_eq).Related Eq
      ((renderer.scopeAt depth).serialize (pre ++ [.embed source (.literal place constant)] ++ post))
      ((renderer.scopeAt depth).serialize (pre ++ inlined ++ post)) := by
  have self (nodes : List Node) := renderAll_spelled (scopeAt_transfers builtin s (Nat.le_refl depth))
    (Node.likeAll_refl (Comparison.hosts_self fun _ _ => .rfl) nodes)
  apply finished_spelled
  have embedded := embed_spelled builtin supplied named source place depth
  exact renderAll_append_spelled (renderAll_append_spelled (self pre) embedded) (self post)

/-- Every template that is kept is the parse of what the loader holds. -/
def Consistent (renderer : Renderer) (s : Store) : Prop :=
  ∀ path nodes, s.cached? path = some nodes →
    renderer.grammar.fetch renderer.loader.bytes? path = .ok nodes

theorem consistent_empty (renderer : Renderer) : renderer.Consistent .empty := by
  intro path nodes kept
  cases kept

/-- A template may be kept once it is parsed. -/
theorem Consistent.keep (consistent : renderer.Consistent s) {path : String} {nodes : List Node}
    (parsed : renderer.grammar.fetch renderer.loader.bytes? path = .ok nodes) :
    renderer.Consistent (s.keep path nodes) := by
  intro other kept found
  change List.lookup other ((path, nodes) :: _) = _ at found
  by_cases same : other = path
  · subst same
    rw [List.lookup_cons_self] at found
    rw [parsed, Option.some.inj found]
  · rw [lookup_cons_ne same] at found
    exact consistent other kept ((lookup_filter_ne same _).symm.trans found)

/-- A consistent store supplies the parse of what the loader holds. -/
theorem Consistent.supplied? (consistent : renderer.Consistent s)
    (parsed : renderer.grammar.fetch renderer.loader.bytes? path = .ok inlined) :
    renderer.supplied? s path = some inlined := by
  have fresh : renderer.parsed? path = some inlined := by
    rw [parsed?, parsed]
    rfl
  unfold Renderer.supplied?
  rw [fresh]
  cases kept : s.cached? path with
  | none => split <;> rfl
  | some nodes =>
    have same := consistent path nodes kept
    rw [parsed] at same
    cases same
    split <;> rfl

/-- Embedding is inlining. At any depth, on any data and between any nodes: when a template that
embeds another at a constant path can succeed, the one with the nodes of the other in its place
surely succeeds, with the same text and the same data afterwards. Others may render at the same
time, as long as the templates and the patterns that come out of the store stay the same. -/
theorem embed_inlined (renderer : Renderer) (builtin : renderer.tags = Tags.builtin) {s : Store}
    (consistent : renderer.Consistent s) {constant : Literal} {path : String}
    (named : constant.value.asString = some path) {inlined : List Node}
    (parsed : renderer.grammar.fetch renderer.loader.bytes? (renderer.config.resolve path) =
      .ok inlined) (source place : Source) (depth : Nat) (pre post : List Node)
    {data after : Value} {text : String}
    (embedded : Outcome (renderer.Agrees s) (((renderer.scopeAt depth).serialize
      (pre ++ [.embed source (.literal place constant)] ++ post)).runOn data) (.ok text, after)) :
    Assured (renderer.Agrees s) (· = (.ok text, after))
      (((renderer.scopeAt depth).serialize (pre ++ inlined ++ post)).runOn data) := by
  have related := inlined_spelled builtin (consistent.supplied? parsed) named source place depth
    pre post data data rfl
  have sure := related.carries (text, after) (Evaluation.outcome_of_runOn embedded)
  apply (Evaluation.runOn_assured sure).mono
  rintro ⟨result, left⟩ ⟨⟨text', after'⟩, ended, rfl, rfl⟩
  cases result with
  | error why => cases ended
  | ok text =>
    cases ended
    rfl

private def writingText : List UInt8 := Utf8.encode "#set(\"x\", \"hi\")"

private def writingNodes : List Node :=
  [.tag ⟨"p.kit", 0, 0, 0, 15, writingText⟩ "set"
    [.literal ⟨"p.kit", 0, 5, 5, 8, writingText⟩ (.string "x"),
      .literal ⟨"p.kit", 0, 10, 10, 14, writingText⟩ (.string "hi")] none]

private def writer : Renderer := .kit (.memory [("p.kit", writingText)])

private def nowhere : Source := ⟨"t", 0, 0, 0, 0, []⟩

private def printsA : List Node := [.tag nowhere "" [.literal nowhere (.string "a")] none]

private def embedsWriting : List Node := [.embed nowhere (.literal nowhere (.string "p"))]

private def readsWritten : List Node := [.tag nowhere "" [.identifier nowhere ⟨[.key "x"]⟩] none]

/-- The entry that an embedded template writes is read behind it, and so it is behind the nodes of
that template, which is kept already. -/
theorem embed_inlined_writing :
    Assured (writer.Agrees (Store.empty.keep "p.kit" writingNodes))
      (· = (.ok "ahi", .map [("x", .string "hi")]))
      (((writer.scopeAt 3).serialize (printsA ++ writingNodes ++ readsWritten)).runOn .null) := by
  have named : (Literal.string "p").value.asString = some "p" := rfl
  have parsed : writer.grammar.fetch writer.loader.bytes? (writer.config.resolve "p") =
      .ok writingNodes := by cbv
  have builtin : writer.tags = Tags.builtin := rfl
  have embedded := (serialize_ends builtin (Store.empty.keep "p.kit" writingNodes) 3
    (printsA ++ embedsWriting ++ readsWritten) .null).outcome_run (.refl _ _)
  have ran : ((((writer.scopeAt 3).serialize (printsA ++ embedsWriting ++ readsWritten)).runOn
      .null).run (Store.empty.keep "p.kit" writingNodes)).1 =
        (.ok "ahi", .map [("x", .string "hi")]) := by rfl
  rw [ran] at embedded
  exact embed_inlined writer builtin ((consistent_empty writer).keep parsed) named parsed nowhere
    nowhere 3 printsA readsWritten embedded

end Renderer

end Stencil
