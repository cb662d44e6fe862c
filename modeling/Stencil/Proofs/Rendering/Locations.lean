import Mathlib
import Stencil.Proofs.Grammar.Kit.Spans
import Stencil.Proofs.Grammar.Mustache.Spans
import Stencil.Proofs.Quoting
import Stencil.Proofs.Rendering.Loaded
import Stencil.Proofs.Tags.Fair
import Stencil.Proofs.Tags.Memo
import Stencil.Renderer

/-! # Where errors point

All three grammars give exact sources to the nodes they read, and to the error when they cannot read
on. Rendering takes the sources of its errors from the nodes, and embedded templates are read by the
same grammars, so its errors are exact as well, but for those that the host makes up in a tag of its
own or in a value that it defers. What points at an exact source can be quoted.
-/

namespace Stencil

open Evaluation (Confined)
open Routine (Assured Outcome)

/-- What the error points at is exact, and each of its labels can be quoted, with any number of
lines around it. -/
structure Error.Located (why : Error) : Prop where
  exact : ∀ source, why.source? = some source → source.Exact
  quoted : ∀ label ∈ why.labels, ∀ before after, ∃ snippet,
    Snippet.of? label.2 before after = some snippet ∧ snippet.Covers label.2

/-- The nodes are those of a template. -/
def Parsed (nodes : List Node) : Prop :=
  ∃ (grammar : Grammar) (buffer : Buffer), grammar.parse buffer = .ok nodes

/-- The templates that the store keeps have been parsed. -/
def Store.KeepsParsed (s : Store) : Prop := ∀ path nodes, s.cached? path = some nodes → Parsed nodes

theorem Store.keepsParsed_of_cache {s t : Store} (kept : s.KeepsParsed)
    (cache : t.cache = s.cache) : t.KeepsParsed := Store.Keeps.of_cache kept cache

theorem Store.keepsParsed_empty : Store.empty.KeepsParsed := Store.Keeps.empty

theorem Store.keepsParsed_lasting : Store.Lasting Store.KeepsParsed := Store.Keeps.lasting

/-- The scope has the tags of the renderer, which also embeds its templates, unless none can be
embedded. -/
structure Scope.Serves (scope : Scope) (renderer : Renderer) : Prop where
  tags : scope.tags = renderer.tags
  embedding : scope.embedding = .unavailable ∨ ∃ levels, scope.embedding = renderer.embedding levels

theorem Error.located_of_exact {why : Error}
    (exact : ∀ source, why.source? = some source → source.Exact) : why.Located where
  exact := exact
  quoted := by
    intro label member before after
    obtain ⟨source, quotable, rfl⟩ := Option.map_eq_some_iff.mp (Option.mem_toList.mp member)
    have points : why.source? = some source := (Option.filter_eq_some_iff.mp quotable).1
    exact Snippet.of?_covers (exact source points) before after

theorem Error.Placed.located {why : Error} (placed : why.Placed) : why.Located := by
  obtain ⟨fault, source, rfl, exact⟩ := placed
  refine Error.located_of_exact ?_
  rintro _ ⟨⟩
  exact exact

/-! ## Grammars -/

namespace Grammar

variable {grammar : Grammar} {buffer : Buffer} {nodes : List Node}

theorem Plain.parse_everywhere : ∀ node ∈ Plain.parse buffer, node.Everywhere Node.Located := by
  unfold Plain.parse
  split
  · exact nofun
  · have passed := (Cursor.start buffer).passed_self.later
      ((Cursor.start buffer).remaining_advance_le (Cursor.start buffer).remaining)
    exact List.forall_mem_singleton.mpr (Node.everywhere_raw ⟨passed.exact, nofun⟩)

/-- A template that is not well formed has a fault with an exact source. -/
theorem parse_placed {why : Error} (failed : grammar.parse buffer = .error why) : why.Placed := by
  cases grammar with
  | kit => exact Kit.parse_placed failed
  | mustache => exact Mustache.parse_placed failed
  | plain => cases failed

/-- All nodes of a template have exact sources. -/
theorem parse_everywhere (parsed : grammar.parse buffer = .ok nodes) :
    ∀ node ∈ nodes, node.Everywhere Node.Located := by
  cases grammar with
  | kit =>
    obtain ⟨_, fills⟩ := Kit.parse_fills parsed
    exact fun node member => (fills.each node member).located
  | mustache =>
    obtain ⟨_, covered⟩ := Mustache.parse_covered parsed
    exact fun node member => (covered.each node member).located
  | plain =>
    cases parsed
    exact Plain.parse_everywhere

end Grammar

/-! ## Embedded templates -/

section

variable {E : Error → Prop} (located : ∀ why : Error, why.Located → E why)
include located

theorem Source.Exact.admits {source : Source} (exact : source.Exact) : source.Admits E := by
  refine fun why points => located why (Error.located_of_exact fun other pointsOther => ?_)
  rw [points] at pointsOther
  cases pointsOther
  exact exact

theorem Parsed.pointed {nodes : List Node} (parsed : Parsed nodes) :
    ∀ node ∈ nodes, node.Everywhere (Node.Pointed E) := by
  obtain ⟨grammar, buffer, parsed⟩ := parsed
  intro node member
  refine (Grammar.parse_everywhere parsed node member).imp fun part place => ?_
  exact ⟨place.exact.admits located, place.notHost⟩

/-- All templates that a renderer loads are parsed, so errors in them are as stated. -/
theorem Renderer.sound_of_fair {renderer : Renderer}
    (fair : renderer.tags.Fair Store.KeepsParsed E) :
    renderer.Sound Parsed (Source.Admits E) E where
  unloaded path fault := located _ (Error.located_of_exact nofun)
  parsed := by
    intro path bytes _
    cases parsed : renderer.grammar.parse ⟨path, bytes⟩ with
    | error why => exact located why (Grammar.parse_placed parsed).located
    | ok nodes => exact ⟨_, _, parsed⟩
  tags := Registry.Fair.sound fair
  templates := by
    intro scope _ nodes parsed
    have pointed := parsed.pointed located
    refine ⟨fun node member => Node.Pointed.sound (pointed node member), ?_⟩
    exact ensures_tells (fun node member => (pointed node member).self.source) _

/-- Embedding fails as stated where errors are, however many templates may embed each other. -/
theorem Renderer.embedding_confined {renderer : Renderer}
    (fair : renderer.tags.Fair Store.KeepsParsed E) (levels : Nat) (source : Source) (path : String)
    (pointed : source.Admits E) : Confined Store.KeepsParsed E (fun _ => True)
      ((renderer.embedding levels).render source path) :=
  (Renderer.sound_of_fair located fair).embedding levels source path pointed

/-- A scope of fair tags that serves a renderer is fair. -/
theorem Scope.Serves.fair {scope : Scope} {renderer : Renderer} (serves : scope.Serves renderer)
    (fair : renderer.tags.Fair Store.KeepsParsed E) : scope.Fair Store.KeepsParsed E where
  tags := serves.tags ▸ fair
  embedding := by
    intro source path pointed
    rcases serves.embedding with none | ⟨levels, some⟩
    · rw [none]
      exact .throw (pointed _ rfl)
    · rw [some]
      exact Renderer.embedding_confined located fair levels source path pointed

end

/-- Whatever the template is, the sources of its nodes at any depth are exact, or else its error
points at an exact source. With the tags there are, rendering the nodes fails only with errors that
point at exact sources, when they have one, and with those of what is deferred in the data. Tags of
the host may add errors of its own. Whatever points at an exact source can be quoted. -/
theorem Grammar.parse_located (grammar : Grammar) (buffer : Buffer) :
    (∀ why, grammar.parse buffer = .error why → why.Placed ∧ why.Located) ∧
      ∀ nodes, grammar.parse buffer = .ok nodes →
        (∀ node ∈ nodes, node.Everywhere fun part => part.source.Exact) ∧
        ∀ (renderer : Renderer) (scope : Scope) (data left : Value) (why : Error),
          scope.Serves renderer →
          Outcome Store.KeepsParsed ((scope.serialize nodes).runOn data) (.error why, left) →
          (renderer.tags = Tags.builtin → why.Located ∨ data.Fails why) ∧
          ∀ host : Error → Prop,
            renderer.tags.Fair Store.KeepsParsed (fun why => why.Located ∨ host why) →
            data.Defers host → why.Located ∨ host why := by
  refine ⟨fun why failed => ⟨parse_placed failed, (parse_placed failed).located⟩, ?_⟩
  intro nodes parsed
  refine ⟨fun node member => (parse_everywhere parsed node member).imp fun _ place => place.exact,
    ?_⟩
  intro renderer scope data left why serves possible
  have hosted : ∀ host : Error → Prop,
      renderer.tags.Fair Store.KeepsParsed (fun why => why.Located ∨ host why) →
      data.Defers host → why.Located ∨ host why := by
    intro host fair made
    have confined := Scope.serialize_confined Store.keepsParsed_lasting
      (serves.fair (fun _ => .inl) fair) (Parsed.pointed (fun _ => .inl) ⟨grammar, buffer, parsed⟩)
    exact ((confined data (made.mono fun _ => .inr)).of_outcome possible).1
  refine ⟨fun plain => hosted _ ?_ fun _ fails => fails, hosted⟩
  rw [plain]
  exact Tags.builtin_fair fun text s kept =>
    Store.keepsParsed_of_cache kept (Tags.patternOf_cache text s)

/-- Line ends of two bytes, and a tag that nobody has registered on the second line. -/
private def unknown : Buffer := ⟨"t", "a\r\n#nope()".toList.map Grammar.byte⟩

private def unknownSource : Source := ⟨"t", 1, 0, 3, 10, unknown.text⟩

private def unknownNodes : List Node :=
  [.raw ⟨"t", 0, 0, 0, 3, unknown.text⟩ ("a\r\n".toList.map Grammar.byte),
    .tag unknownSource "nope" [] none]

/-- The template without its last byte. -/
private def unclosed : Buffer := ⟨"t", unknown.text.dropLast⟩

private def unclosedFault : Error := .parse .expressionAtEnd ⟨"t", 1, 6, 9, 9, unclosed.text⟩

private def bareRenderer : Renderer := .kit (.memory [])

private theorem unknown_fails : (bareRenderer.scope.serialize unknownNodes).runOn .null =
    .done (.error (.missingTag "nope" unknownSource), .null) := by
  have missing : bareRenderer.scope.tags.find? "nope" = none := by decide +kernel
  have calls : bareRenderer.scope.render (.tag unknownSource "nope" [] none) =
      throw (.missingTag "nope" unknownSource) := by
    unfold Scope.render Scope.call
    rw [missing]
  unfold Scope.serialize unknownNodes
  rw [Scope.renderAll, Scope.renderAll, calls, Scope.render]
  rfl

/-- The rendering of the template fails at the tag, and without its last byte it is no template. -/
theorem Grammar.parse_located_unknown :
    Grammar.kit.parse unclosed = .error unclosedFault ∧ unclosedFault.Located ∧
      Grammar.kit.parse unknown = .ok unknownNodes ∧
      Outcome Store.KeepsParsed ((bareRenderer.scope.serialize unknownNodes).runOn .null)
        (.error (.missingTag "nope" unknownSource), .null) ∧
      (Error.missingTag "nope" unknownSource).Located := by
  have failed : Grammar.kit.parse unclosed = .error unclosedFault := by cbv
  have parsed : Grammar.kit.parse unknown = .ok unknownNodes := by cbv
  have possible : Outcome Store.KeepsParsed
      ((bareRenderer.scope.serialize unknownNodes).runOn .null)
      (.error (.missingTag "nope" unknownSource), .null) := by
    rw [unknown_fails]
    exact ⟨.empty, .empty, Store.keepsParsed_empty, .done _ _⟩
  have fair : bareRenderer.tags.Fair Store.KeepsParsed fun why => why.Located ∨ False :=
    Tags.builtin_fair fun text s kept =>
      Store.keepsParsed_of_cache kept (Tags.patternOf_cache text s)
  obtain ⟨plain, hosted⟩ := ((parse_located .kit unknown).2 _ parsed).2 bareRenderer
    bareRenderer.scope _ _ _ ⟨rfl, .inr ⟨_, rfl⟩⟩ possible
  refine ⟨failed, ((parse_located .kit unclosed).1 _ failed).2, parsed, possible, ?_⟩
  exact (plain rfl).elim id fun _ => (hosted _ fair Value.defers_null).elim id False.elim

end Stencil
