import Stencil.Proofs.Grammar.Kit.Cuts
import Stencil.Proofs.Grammar.Mustache.Cuts
import Stencil.Proofs.Rendering.Legible
import Stencil.Proofs.Rendering.Loaded
import Stencil.Proofs.Rendering.Locations
import Stencil.Proofs.Rendering.Sessions

/-! # Values without a text do not reach the output

Bytes that are no text, maps and what is deferred have no text, and data may hold all of them. But a
path by itself is printed by no grammar: it stands in a tag, in an operator or in a condition, and
those print what they like of it. So when the templates themselves are texts, rendering them fails
in other ways only.
-/

namespace Stencil

open Routine (Assured)

/-- The nodes are those of a template that is a text. -/
def OfText (nodes : List Node) : Prop :=
  ∃ (grammar : Grammar) (buffer : Buffer),
    Utf8.Valid buffer.text ∧ grammar.parse buffer = .ok nodes

/-- The error is not that a value has no text. -/
def Error.Textual (why : Error) : Prop := why.textless = false

/-- If there is no text, that is not because a value has none. -/
def Told (result : Except Error String) : Prop := ∀ why, result = .error why → why.Textual

/-- Where no error is about a value without a text, a value without one is never the reason. -/
theorem told_of_held {result : Except Error String}
    (held : Held Error.Textual (fun _ => True) result) : Told result := by
  rintro why rfl
  exact held

/-- A template that is a text is legible. -/
theorem OfText.legible {nodes : List Node} (written : OfText nodes) : Node.LegibleAll nodes := by
  obtain ⟨grammar, buffer, text, parsed⟩ := written
  cases grammar with
  | kit => exact Grammar.Kit.parse_legible text parsed
  | mustache => exact Grammar.Mustache.parse_legible text parsed
  | plain =>
    cases parsed
    unfold Grammar.Plain.parse
    split
    · exact Node.legibleAll_nil
    · exact List.forall_mem_singleton.mpr ⟨text, Node.tidy_raw _⟩

/-- A template that is a text is read as such a template, or is malformed. -/
theorem Grammar.parse_text {grammar : Grammar} {buffer : Buffer} (text : Utf8.Valid buffer.text) :
    Held Error.Textual OfText (grammar.parse buffer) := by
  cases parsed : grammar.parse buffer with
  | error why =>
    obtain ⟨fault, source, rfl, -⟩ := parse_placed parsed
    rfl
  | ok nodes => exact ⟨_, _, text, parsed⟩

/-- Where all is tidy, what is rendered like a template has a text. -/
theorem Node.Tidy.sound {E : Error → Prop} {scope : Scope} (tags : scope.tags.Each Handler.Prints)
    {node : Node} (tidy : node.Everywhere Tidy) :
    node.Everywhere (Node.Sound (fun _ => True) E scope) := by
  refine tidy.spread fun part tidy => ⟨trivial, tidy.self.notHost, fun block among => ?_⟩
  have legible : LegibleAll block := fun inner member =>
    ⟨tidy.self.blocks block among inner member, tidy.inside (child_of_block among member)⟩
  exact Scope.renderAll_tells tags legible

namespace Renderer

variable {renderer : Renderer}

/-- A renderer of templates that are texts, with the built-in tags, is sound. -/
theorem sound_of_texts (builtin : renderer.tags = Tags.builtin)
    (texts : ∀ path bytes, renderer.loader.bytes? path = some bytes → Utf8.Valid bytes) :
    renderer.Sound OfText (fun _ => True) Error.Textual where
  unloaded _ _ := rfl
  parsed path bytes held := Grammar.parse_text (texts path bytes held)
  tags := by
    rw [builtin]
    refine ⟨fun _ _ _ _ textual => textual, ?_⟩
    intro name handler found call _ given bodies
    have keeps : ∀ text s, Store.Keeps OfText s → Store.Keeps OfText (Tags.patternOf text s).2 :=
      fun text s kept => kept.of_cache (Tags.patternOf_cache text s)
    exact Tags.builtin_sound keeps name handler found call ⟨fun _ => rfl, given, bodies⟩
  templates := by
    intro scope same nodes written
    have prints : scope.tags.Each Handler.Prints := same ▸ builtin ▸ Tags.builtin_prints
    exact ⟨fun node member => Node.Tidy.sound prints (written.legible node member).2,
      Scope.renderAll_tells prints written.legible⟩

/-- With the tags there are and templates that are texts, rendering does not fail for want of a
text: no bytes that are no text, no map and nothing that is still deferred reaches the output,
whatever the templates and the data are, unless something deferred in the data fails with just that.
This is so as long as all that is kept are templates that are texts, whatever else others do
meanwhile. -/
theorem renders_told (renderer : Renderer) (builtin : renderer.tags = Tags.builtin)
    (texts : ∀ path bytes, renderer.loader.bytes? path = some bytes → Utf8.Valid bytes)
    {data : Value} (deferred : data.Defers Error.Textual) :
    (∀ path, Assured (Store.Keeps OfText) (fun ended => Told ended.1)
      ((renderer.renderPath path).runOn data)) ∧
    (∀ buffer, Utf8.Valid buffer.text → Assured (Store.Keeps OfText) (fun ended => Told ended.1)
      ((renderer.renderBuffer buffer).runOn data)) ∧
    ∀ session : Session, session.renderer = renderer → session.store.Keeps OfText →
      (∀ path, Told (session.renderPath path data).1) ∧
      ∀ buffer, Utf8.Valid buffer.text → Told (session.renderBuffer buffer data).1 := by
  have sound := sound_of_texts builtin texts
  have byPath (path : String) : Assured (Store.Keeps OfText) (fun ended => Told ended.1)
      ((renderer.renderPath path).runOn data) :=
    (sound.renderPath path data deferred).mono fun _ ended => told_of_held ended.1
  have byBuffer (buffer : Buffer) (text : Utf8.Valid buffer.text) :
      Assured (Store.Keeps OfText) (fun ended => Told ended.1)
        ((renderer.renderBuffer buffer).runOn data) :=
    (sound.renderBuffer (Grammar.parse_text text) data deferred).mono
      fun _ ended => told_of_held ended.1
  refine ⟨byPath, byBuffer, ?_⟩
  rintro session rfl kept
  constructor
  · intro path
    rw [Session.renderPath_result]
    exact (byPath path _ kept).run.1
  · intro buffer text
    have fresh : Store.Keeps OfText { session.store with notes := .empty } := kept.of_cache rfl
    rw [Session.renderBuffer_result]
    exact (byBuffer buffer text _ fresh).run.1

/-- A template that prints the items of an array, each between angle brackets. -/
private def listing : List UInt8 := Utf8.encode "#for(x in xs) \x7b<#(x)>\x7d"

private def lister : Renderer := .kit (.memory [("list.kit", listing)])

/-- An array with a map, bytes that are no text, and something that is deferred. -/
private def listed : Value :=
  .map [("xs", .array [.map [], .bytes [0xff], .pending (.host 0) 1 none (.ok (.bytes [0xff]))])]

/-- A loop over a map, over bytes that are no text and over a deferred value fails for one of these,
or has a text. -/
theorem renders_told_lister :
    (∀ path bytes, lister.loader.bytes? path = some bytes → Utf8.Valid bytes) ∧
      listed.Defers Error.Textual ∧ Told ((Session.start lister).renderPath "list" listed).1 := by
  have texts : ∀ path bytes, lister.loader.bytes? path = some bytes → Utf8.Valid bytes := by
    intro path bytes held
    change List.lookup path [("list.kit", listing)] = some bytes at held
    rw [List.lookup_cons] at held
    split at held <;> cases held
    exact Utf8.valid_encode _
  have deferred : listed.Defers Error.Textual := by
    refine Value.defers_map.mpr (List.forall_mem_singleton.mpr (Value.defers_array.mpr ?_))
    simp only [List.forall_mem_cons, List.not_mem_nil, false_implies, implies_true, and_true]
    refine ⟨Value.defers_of_whole rfl, Value.defers_of_whole rfl, ?_⟩
    rintro why (_ | inside)
    cases inside
  obtain ⟨-, -, sessions⟩ := renders_told lister rfl texts deferred
  exact ⟨texts, deferred, (sessions _ rfl .empty).1 "list"⟩

end Renderer

end Stencil
