import Stencil.Grammar.Mustache
import Stencil.Proofs.Grammar.Reads
import Stencil.Proofs.Parts

/-! # Mustache templates are cut at ASCII

Raw text ends in front of a brace, and a tag ends behind one. So the raw nodes of a template that is
a text hold texts.
-/

namespace Stencil.Grammar.Mustache

open Node (LegibleAll Tidy)

variable {buffer : Buffer} {c : Cursor buffer}

/-- Raw text ends before a brace, so no character is cut. -/
theorem cut_drop_rawLength (rest : List UInt8) : Utf8.Cut (rest.drop (rawLength rest)) := by
  induction rest with
  | nil => exact Utf8.cut_nil
  | cons b rest ih =>
    rw [rawLength]
    split
    · rename_i ends
      have brace : byte '\x7b' = b := by
        simp only [opener, List.isPrefixOf_cons_cons, Bool.and_eq_true, beq_iff_eq] at ends
        exact ends.1
      rw [List.drop_zero, Utf8.cut_cons, ← brace]
      decide
    · exact ih

/-- A closed name ends behind the last byte of its marker. -/
theorem closedName_valid (text : Utf8.Valid buffer.text) (marker : List UInt8) (start : Position)
    (c : Cursor buffer) (closes : ∃ front, marker = front ++ [byte '\x7d']) :
    Ensures (closedName marker start c) fun _ next => Utf8.Valid next.rest := by
  obtain ⟨front, rfl⟩ := closes
  unfold closedName
  refine (Ensures.any _).bind ?_
  rintro ⟨named, next, below⟩ -
  dsimp only
  split
  · rename_i there
    obtain ⟨rest, whole⟩ := List.isPrefixOf_iff_prefix.mp there
    have behind : next.rest = front ++ byte '\x7d' :: rest := by simp [← whole]
    refine .of_ok ?_
    dsimp only
    rw [Cursor.rest_advance, ← whole, List.drop_left]
    exact Cursor.valid_behind text (by decide) next behind
  · exact .of_error _

/-- A node among the pieces is legible, with all in it. -/
def Piece.Legible : Piece → Prop
  | .node made => made.Legible ∧ made.Everywhere Tidy
  | _ => True

theorem call_legible (tag : String) (start : Position) {limit : Nat}
    (read : Reading buffer limit (Source × Path)) : (call tag start read).Legible :=
  ⟨trivial, Node.tidy_tag _ (List.forall_mem_singleton.mpr (Node.tidy_identifier _)) nofun⟩

/-- A tag of a text is legible and leaves a text. -/
theorem tag_cut (text : Utf8.Valid buffer.text) (c : Cursor buffer) :
    Ensures (tag c) fun read next => read.Legible ∧ Utf8.Valid next.rest := by
  unfold tag
  dsimp only
  split
  · exact .of_error _
  split
  · exact (closedName_valid text _ _ _ ⟨closer, rfl⟩).bind fun read goesOn =>
      .of_ok ⟨call_legible _ _ read, goesOn⟩
  split
  · exact (closedName_valid text _ _ _ ⟨[byte '\x7d'], rfl⟩).bind fun _ goesOn =>
      .of_ok ⟨trivial, goesOn⟩
  split
  · exact (closedName_valid text _ _ _ ⟨[byte '\x7d'], rfl⟩).bind fun _ goesOn =>
      .of_ok ⟨trivial, goesOn⟩
  · exact (closedName_valid text _ _ _ ⟨[byte '\x7d'], rfl⟩).bind fun read goesOn =>
      .of_ok ⟨call_legible _ _ read, goesOn⟩

theorem piece_cut (text : Utf8.Valid buffer.text) (c : Cursor buffer) (left : c.rest ≠ [])
    (valid : Utf8.Valid c.rest) :
    Ensures (piece c left) fun read next => read.Legible ∧ Utf8.Valid next.rest := by
  unfold piece
  split
  · exact tag_cut text c
  · rw [← List.take_append_drop (rawLength c.rest) c.rest] at valid
    obtain ⟨legible, goesOn⟩ := (cut_drop_rawLength c.rest).valid valid
    exact .of_ok ⟨⟨legible, Node.tidy_raw _⟩, goesOn⟩

/-- Nodes that are read from a text are legible with all in them, and end where the text can be
cut. -/
theorem nodes_cut (text : Utf8.Valid buffer.text) (open? : Option Path) (c : Cursor buffer)
    (valid : Utf8.Valid c.rest) :
    Ensures (nodes open? c) fun values next => LegibleAll values ∧ Utf8.Valid next.rest := by
  unfold nodes
  split
  · exact .of_ok ⟨Node.legibleAll_nil, valid⟩
  · rename_i left
    refine (piece_cut text c left valid).bind ?_
    rintro ⟨read, next, below⟩ ⟨legible, goesOn⟩
    cases read with
    | node node =>
      refine (nodes_cut text open? next goesOn).bind ?_
      rintro ⟨others, after, within⟩ ⟨rest, ended⟩
      exact .of_ok ⟨Node.legibleAll_cons.mpr ⟨legible, rest⟩, ended⟩
    | opening start source path =>
      refine (nodes_cut text (some path) next goesOn).bind ?_
      rintro ⟨body, after, inside⟩ ⟨block, behind⟩
      refine (nodes_cut text open? after behind).bind ?_
      rintro ⟨others, last, within⟩ ⟨rest, ended⟩
      have section' : (Node.conditional (after.source start) (.identifier source path) body
          []).Everywhere Tidy := Node.tidy_conditional (Node.tidy_identifier _) block nofun
      exact .of_ok ⟨Node.legibleAll_cons.mpr ⟨⟨trivial, section'⟩, rest⟩, ended⟩
    | closing source path =>
      cases open? with
      | none => exact .of_error _
      | some opened =>
        dsimp only
        split
        · exact .of_ok ⟨Node.legibleAll_nil, goesOn⟩
        · refine (nodes_cut text (some opened) next goesOn).bind ?_
          rintro ⟨others, after, within⟩ holds
          exact .of_ok holds
termination_by c.remaining

/-- A template that is a text is read as legible nodes. -/
theorem parse_legible (text : Utf8.Valid buffer.text) {values : List Node}
    (parsed : parse buffer = .ok values) : LegibleAll values := by
  obtain ⟨_, legible, -⟩ := (nodes_cut text none (Cursor.start buffer) text).of_value parsed
  exact legible

end Stencil.Grammar.Mustache
