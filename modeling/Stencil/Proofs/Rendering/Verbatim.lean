import Stencil.Proofs.Grammar.Mustache.Templates
import Stencil.Proofs.Rendering.Interpolation
import Stencil.Proofs.Rendering.Sessions

/-! # Text that stands for itself

Every grammar can write texts as they are: a kit template escapes their hashes, a mustache template
only takes those without two opening braces in a row, and plain text takes all. In each case the
template is read as raw text alone, in pieces that together are the text. Raw text looks neither at
the data nor at the tags, so it is the same text wherever it is rendered.
-/

namespace Stencil

open Evaluation (Gives)
open Grammar.Kit (Spell protect)
open Grammar.Mustache (opener)

/-- The template is read as nodes that are the text in every scope and on all data, so a session
with the grammar renders it to the text. -/
structure Grammar.Writes (grammar : Grammar) (buffer : Buffer) (text : String) : Prop where
  parsed : ∃ nodes, grammar.parse buffer = .ok nodes ∧
    ∀ (scope : Scope) (data : Value), Gives (scope.serialize nodes) data text
  rendered : ∀ (session : Session) (data : Value), session.renderer.grammar = grammar →
    (session.renderBuffer buffer data).1 = .ok text

namespace Grammar

variable {file : String} {s : String}

/-- Raw nodes are the text that they spell. -/
theorem Writes.of_spell {grammar : Grammar} {buffer : Buffer}
    (read : ∃ nodes, grammar.parse buffer = .ok nodes ∧ Spell nodes s.toList) :
    grammar.Writes buffer s := by
  obtain ⟨nodes, parsed, spell⟩ := read
  have gives (scope : Scope) (data : Value) : Gives (scope.serialize nodes) data s := by
    have prints : scope.Prints data (nodes ++ []) (s.toList ++ []) := prints_spell spell .nil
    simpa using prints.serialize
  refine ⟨⟨nodes, parsed, gives⟩, ?_⟩
  rintro session data rfl
  exact Session.renderBuffer_of_gives parsed (gives _ data)

/-- The protected text is read as nodes that spell it. -/
theorem Kit.parse_protect (file : String) (s : String) :
    ∃ nodes, Kit.parse ⟨file, protect (Utf8.encode s)⟩ = .ok nodes ∧ Spell nodes s.toList :=
  Kit.parse_of_reads (Kit.reads_nodes_spell rfl)

/-- One raw node spells its text; an empty text has no node. -/
theorem spell_raw {nodes : List Node}
    (raw : Node.bareAll nodes = if Utf8.encode s = [] then [] else [.raw nowhere (Utf8.encode s)]) :
    Spell nodes s.toList := by
  split at raw
  · rename_i empty
    have none : s.toList = [] :=
      List.eq_nil_iff_forall_not_mem.mpr (by simpa [Utf8.encode, Utf8.encodeChars] using empty)
    exact ⟨[], raw, none.symm⟩
  · exact ⟨[s.toList], raw, List.flatten_singleton⟩

/-- A template that opens no tag is one raw node. -/
theorem Mustache.parse_unopened (file : String) {text : List UInt8} (unopened : ¬ opener <:+: text) :
    ∃ nodes, Mustache.parse ⟨file, text⟩ = .ok nodes ∧
      Node.bareAll nodes = if text = [] then [] else [.raw nowhere text] := by
  let start := Cursor.start ⟨file, text⟩
  have read : Reads (Mustache.nodes none start) fun nodes _ =>
      Node.bareAll nodes = if text = [] then [] else [.raw nowhere text] := by
    by_cases empty : text = []
    · rw [Mustache.nodes_atEnd empty, if_pos empty]
      exact .of_ok rfl
    · rw [if_neg empty]
      have piece := Mustache.reads_piece_raw (c := start) empty empty unopened
        (fun further => absurd rfl further) (List.append_nil text).symm (.inl rfl)
      refine Mustache.reads_nodes_node empty piece fun node next same atEnd => ?_
      rw [Mustache.nodes_atEnd atEnd]
      exact .of_ok (by rw [Node.bareAll, same]; rfl)
  obtain ⟨reading, ok, same⟩ := read
  exact ⟨reading.value, by rw [Mustache.parse, ok]; rfl, same⟩

/-- The plain grammar reads one raw node, and none from an empty buffer. -/
theorem Plain.parse_bare (file : String) (text : List UInt8) :
    Node.bareAll (Plain.parse ⟨file, text⟩) = if text = [] then [] else [.raw nowhere text] := by
  cases text <;> rfl

/-- Every text is written by the kit template with a backslash before each of its hashes, by itself
as a plain text, and by itself as a mustache template when it does not open a tag. -/
theorem writes_verbatim (file : String) (s : String) :
    kit.Writes ⟨file, protect (Utf8.encode s)⟩ s ∧
      (¬ opener <:+: Utf8.encode s → mustache.Writes ⟨file, Utf8.encode s⟩ s) ∧
      plain.Writes ⟨file, Utf8.encode s⟩ s := by
  refine ⟨.of_spell (Kit.parse_protect file s), fun unopened => ?_, ?_⟩
  · obtain ⟨nodes, parsed, raw⟩ := Mustache.parse_unopened file unopened
    exact .of_spell ⟨nodes, parsed, spell_raw raw⟩
  · exact .of_spell ⟨_, rfl, spell_raw (Plain.parse_bare file (Utf8.encode s))⟩

/-- Backslashes before hashes, single braces, and what looks like a tag with a branch. -/
theorem writes_verbatim_slashes :
    let s := "\\\\# ## #if(x) \x7b a \x7d else \x7b b \x7d \\"
    ¬ opener <:+: Utf8.encode s ∧ kit.Writes ⟨"t", protect (Utf8.encode s)⟩ s ∧
      mustache.Writes ⟨"t", Utf8.encode s⟩ s ∧ plain.Writes ⟨"t", Utf8.encode s⟩ s := by
  intro s
  have unopened : ¬ opener <:+: Utf8.encode s := by decide +kernel
  obtain ⟨escaped, single, plain⟩ := writes_verbatim "t" s
  exact ⟨unopened, escaped, single unopened, plain⟩

end Grammar

end Stencil
