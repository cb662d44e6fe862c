import Stencil.Proofs.Grammar.Kit.Operands

/-! # Literals with tags in them

A literal in which texts and tags alternate. Its contents are read twice: the escapes of its texts
are resolved once, and the result is read again as a template. A text that ends in a backslash
then protects the hash of the tag behind it, so that the tag is text; such a text, the tag and the
text behind it are one piece. Between pieces joined in this way nothing else can be taken for an
escape, and they are what the second reading finds.
-/

namespace Stencil.Grammar.Kit

variable {buffer : Buffer}

/-- A text and the path that a tag behind it prints. -/
structure Piece where
  text : List Char
  name : Identifier

namespace Piece

def path (piece : Piece) : Path := Path.parse piece.name.text

def tag (piece : Piece) : List UInt8 := byte '#' :: byte '(' :: (piece.name.bytes ++ [byte ')'])

def tagChars (piece : Piece) : List Char := piece.tag.map fun b => Char.ofNat b.toNat

/-- The text ends in a backslash, which stands right before the tag. -/
def Escapes (piece : Piece) : Prop := piece.text.getLast? = some '\\'

instance (piece : Piece) : Decidable piece.Escapes :=
  inferInstanceAs (Decidable (piece.text.getLast? = some '\\'))

end Piece

/-- The contents of the literal: every text with its escapes, and every tag as it is. -/
def contents (pieces : List Piece) (last : List Char) : List UInt8 :=
  pieces.flatMap (fun piece => quote (Utf8.encodeChars piece.text) ++ piece.tag) ++
    quote (Utf8.encodeChars last)

def literal (pieces : List Piece) (last : List Char) : List UInt8 :=
  byte '"' :: (contents pieces last ++ [byte '"'])

/-- The characters of the literal when its tags are text. -/
def plainChars (pieces : List Piece) (last : List Char) : List Char :=
  pieces.flatMap (fun piece => piece.text ++ piece.tagChars) ++ last

def template (pieces : List Piece) (last : List Char) : List UInt8 :=
  pieces.flatMap (fun piece => protect (Utf8.encodeChars piece.text) ++ piece.tag) ++
    protect (Utf8.encodeChars last)

/-- The pieces with every text that escapes the tag behind it joined to the next one. -/
def joined : List Piece → List Char → List Piece × List Char
  | [], last => ([], last)
  | piece :: rest, last =>
    if piece.Escapes then
      let text := piece.text.dropLast ++ piece.tagChars
      match joined rest last with
      | ([], last) => ([], text ++ last)
      | (next :: others, last) => (⟨text ++ next.text, next.name⟩ :: others, last)
    else (piece :: (joined rest last).1, (joined rest last).2)

/-! ## The first reading -/

namespace Piece

/-- A tag holds a hash, a word and parentheses. -/
theorem mem_tag {piece : Piece} {b : UInt8} (member : b ∈ piece.tag) :
    b = byte '#' ∨ b = byte '(' ∨ isWordByte b = true ∨ b = byte ')' := by
  simp only [tag, List.mem_cons, List.mem_append, List.not_mem_nil, or_false] at member
  exact member.imp_right (.imp_right (.imp_left (piece.name.inside b)))

theorem tag_ascii {piece : Piece} {b : UInt8} (member : b ∈ piece.tag) : b.toNat < 128 := by
  rcases mem_tag member with rfl | rfl | inside | rfl
  · decide
  · decide
  · exact toNat_of_isWordByte inside
  · decide

theorem not_mem_tag {piece : Piece} {b : UInt8} (outside : isWordByte b = false)
    (other : b ∉ [byte '#', byte '(', byte ')']) : b ∉ piece.tag := by
  intro member
  rcases mem_tag member with rfl | rfl | inside | rfl
  · simp at other
  · simp at other
  · exact absurd inside (by simp [outside])
  · simp at other

theorem encodeChars_tagChars (piece : Piece) : Utf8.encodeChars piece.tagChars = piece.tag := by
  have ascii : ∀ c ∈ piece.tagChars, c.toNat < 128 := by
    intro c member
    obtain ⟨b, inside, rfl⟩ := List.mem_map.mp member
    rw [toNat_ofNat (tag_ascii inside)]
    exact tag_ascii inside
  rw [Utf8.encodeChars_ascii ascii, tagChars, List.map_map]
  exact (List.map_congr_left fun b member => toUInt8_ofNat (tag_ascii member)).trans
    (List.map_id _)

end Piece

theorem contents_cons (piece : Piece) (rest : List Piece) (last : List Char) :
    contents (piece :: rest) last =
      quote (Utf8.encodeChars piece.text) ++ (piece.tag ++ contents rest last) := by
  simp only [contents, List.flatMap_cons, List.append_assoc]

theorem plainChars_cons (piece : Piece) (rest : List Piece) (last : List Char) :
    plainChars (piece :: rest) last = piece.text ++ (piece.tagChars ++ plainChars rest last) := by
  simp only [plainChars, List.flatMap_cons, List.append_assoc]

theorem template_cons (piece : Piece) (rest : List Piece) (last : List Char) :
    template (piece :: rest) last =
      protect (Utf8.encodeChars piece.text) ++ (piece.tag ++ template rest last) := by
  simp only [template, List.flatMap_cons, List.append_assoc]

/-- The contents are read as their characters and as their template. -/
theorem readQuoted_contents (pieces : List Piece) (last : List Char) (rest : List UInt8) :
    readQuoted (contents pieces last ++ byte '"' :: rest) =
      .ok ⟨Utf8.encodeChars (plainChars pieces last), template pieces last,
        (contents pieces last).length + 1⟩ := by
  induction pieces with
  | nil =>
    simpa [contents, plainChars, template] using
      readQuoted_quote (Utf8.encodeChars last) (readQuoted_close rest)
  | cons piece pieces ih =>
    have tag := readQuoted_plain (piece.not_mem_tag (by decide) (by decide))
      (piece.not_mem_tag (by decide) (by decide)) ih
    have text := readQuoted_quote (Utf8.encodeChars piece.text) tag
    rw [contents_cons, plainChars_cons, template_cons, List.append_assoc, List.append_assoc, text,
      Utf8.encodeChars_append, Utf8.encodeChars_append, piece.encodeChars_tagChars]
    simp only [List.length_append, Nat.add_assoc]

/-! ## The second reading -/

/-- No text before a tag escapes it. -/
def Free (pieces : List Piece) : Prop := ∀ piece ∈ pieces, ¬ piece.Escapes

/-- Nothing is joined when no text escapes a tag. -/
theorem joined_of_free {pieces : List Piece} (free : Free pieces) (last : List Char) :
    joined pieces last = (pieces, last) := by
  induction pieces with
  | nil => rfl
  | cons piece pieces ih =>
    rw [joined, if_neg (free piece List.mem_cons_self),
      ih fun other member => free other (List.mem_cons_of_mem _ member)]

/-- A text that escapes its tag loses the backslash and takes the tag and the text behind it in. -/
theorem joined_cons_of_escapes {piece : Piece} (escapes : piece.Escapes) (rest : List Piece)
    (last : List Char) : joined (piece :: rest) last =
      match joined rest last with
      | ([], last) => ([], piece.text.dropLast ++ piece.tagChars ++ last)
      | (next :: others, last) =>
        (⟨piece.text.dropLast ++ piece.tagChars ++ next.text, next.name⟩ :: others, last) := by
  rw [joined, if_pos escapes]

theorem getLast?_tagChars (piece : Piece) : piece.tagChars.getLast? = some ')' := by
  have last : piece.tag.getLast? = some (byte ')') := by simp [Piece.tag, List.getLast?_cons]
  rw [Piece.tagChars, List.getLast?_map, last]
  rfl

/-- After joining no text escapes a tag. -/
theorem free_joined (pieces : List Piece) (last : List Char) : Free (joined pieces last).1 := by
  induction pieces with
  | nil => exact nofun
  | cons piece pieces ih =>
    by_cases escapes : piece.Escapes
    · rw [joined_cons_of_escapes escapes]
      cases rest : joined pieces last with
      | mk others last =>
        rw [rest] at ih
        cases others with
        | nil => exact nofun
        | cons next others =>
          intro other member
          rcases List.mem_cons.mp member with rfl | inside
          · have before := ih next List.mem_cons_self
            rw [Piece.Escapes] at before
            rw [Piece.Escapes, List.getLast?_append]
            cases end' : next.text.getLast? with
            | none => simp [List.getLast?_append, getLast?_tagChars]
            | some c => simpa [end'] using before
          · exact ih other (List.mem_cons_of_mem _ inside)
    · rw [joined, if_neg escapes]
      intro other member
      rcases List.mem_cons.mp member with rfl | inside
      · exact escapes
      · exact ih other inside

/-- Protecting a tag puts one backslash in front of it. -/
theorem protect_tag (piece : Piece) : protect piece.tag = byte '\\' :: piece.tag := by
  have hashless : byte '#' ∉ byte '(' :: (piece.name.bytes ++ [byte ')']) := by
    intro member
    simp only [List.mem_cons, List.mem_append, List.not_mem_nil, or_false] at member
    rcases member with clash | inside | clash
    · exact absurd clash (by decide)
    · exact absurd (piece.name.inside _ inside) (by decide)
    · exact absurd clash (by decide)
  exact congrArg (fun rest => byte '\\' :: byte '#' :: rest) (protect_of_hashless hashless)

/-- A text that escapes the tag behind it protects it like a hash of its own. -/
theorem protect_of_escapes {piece : Piece} (escapes : piece.Escapes) (cs : List Char) :
    protect (Utf8.encodeChars (piece.text.dropLast ++ piece.tagChars ++ cs)) =
      protect (Utf8.encodeChars piece.text) ++ (piece.tag ++ protect (Utf8.encodeChars cs)) := by
  obtain ⟨text, parts⟩ := List.getLast?_eq_some_iff.mp escapes
  have slash : protect (Utf8.encodeChars ['\\']) = [byte '\\'] := rfl
  rw [parts, List.dropLast_concat, Utf8.encodeChars_append, Utf8.encodeChars_append,
    piece.encodeChars_tagChars, Utf8.encodeChars_append, protect_append, protect_append,
    protect_append, protect_tag, slash]
  simp

/-- Joining leaves the template as it is. -/
theorem template_joined (pieces : List Piece) (last : List Char) :
    template (joined pieces last).1 (joined pieces last).2 = template pieces last := by
  induction pieces with
  | nil => rfl
  | cons piece pieces ih =>
    by_cases escapes : piece.Escapes
    · rw [joined_cons_of_escapes escapes, template_cons, ← ih]
      cases rest : joined pieces last with
      | mk others last =>
        cases others with
        | nil => exact protect_of_escapes escapes last
        | cons next others =>
          dsimp only
          rw [template_cons, protect_of_escapes escapes, template_cons]
          simp only [List.append_assoc]
          rfl
    · rw [joined, if_neg escapes, template_cons, template_cons, ih]

/-- The nodes are raw text and tags in turn, as the pieces are. -/
def Composes : List Node → List Piece → List Char → Prop
  | nodes, [], last => Spell nodes last
  | nodes, piece :: rest, last => ∃ raws source source' others,
      nodes = raws ++ .tag source "" [.identifier source' piece.path] none :: others ∧
        Spell raws piece.text ∧ Composes others rest last

theorem eq_identifier_of_bare {value : Node} {path : Path}
    (same : value.bare = .identifier nowhere path) : ∃ source, value = .identifier source path := by
  cases value with
  | identifier source path' =>
    rw [Node.bare, Node.identifier.injEq] at same
    exact ⟨source, by rw [same.2]⟩
  | tag _ _ _ body => cases body <;> simp [Node.bare] at same
  | _ => simp [Node.bare] at same

/-- Where no text escapes a tag, the template is read as raw text and tags in turn. -/
theorem reads_nodes_composed {pieces : List Piece} (free : Free pieces) (last : List Char)
    {c : Cursor buffer} (there : c.rest = template pieces last) :
    Reads (nodes none c) fun values _ => Composes values pieces last := by
  induction pieces generalizing c with
  | nil => exact reads_nodes_spell there
  | cons piece rest ih =>
    rw [template_cons] at there
    have following (c' : Cursor buffer) (after : c'.rest = piece.tag ++ template rest last) :
        Reads (nodes none c') fun values _ => ∃ source source' others,
          values = .tag source "" [.identifier source' piece.path] none :: others ∧
            Composes others rest last := by
      have left : c'.rest ≠ [] := after ▸ List.cons_ne_nil _ _
      have written : Written 0 (.path piece.name) piece.name.bytes :=
        (Written.path piece.name).loosen (by decide)
      have tag : c'.rest = byte '#' :: byte '(' ::
          ([] ++ piece.name.bytes ++ [] ++ byte ')' :: template rest last) := by
        simpa [Piece.tag] using after
      refine reads_nodes_cons left (by simp) (reads_unit_tag left (after ▸ rfl)
        (reads_tag_print blank_nil written.readable blank_nil left tag)) ?_
      rintro _ next ⟨⟨source, value, rfl, same⟩, rests⟩
      obtain ⟨source', rfl⟩ := eq_identifier_of_bare same
      refine (ih (fun other member => free other (List.mem_cons_of_mem _ member)) rests).imp ?_
      exact fun others _ composes => ⟨source, source', others, rfl, composes⟩
    have read := reads_nodes_protect (.inr rfl) following piece.text c there
      fun _ => free piece List.mem_cons_self
    refine read.imp ?_
    rintro _ _ ⟨raws, _, rfl, spell, source, source', others, rfl, composes⟩
    exact ⟨raws, source, source', others, rfl, spell, composes⟩

/-- Only without a tag the nodes are all raw. -/
theorem Composes.pieces_eq_nil {nodes : List Node} {pieces : List Piece} {last : List Char}
    (composes : Composes nodes pieces last) (raw : nodes.all Node.isRaw = true) : pieces = [] := by
  cases pieces with
  | nil => rfl
  | cons piece rest =>
    obtain ⟨raws, source, source', others, rfl, -, -⟩ := composes
    simp [Node.isRaw] at raw

theorem pieces_eq_nil_of_template {pieces : List Piece} {last : List Char}
    (hashless : byte '#' ∉ template pieces last) : pieces = [] := by
  cases pieces with
  | nil => rfl
  | cons piece rest =>
    rw [template_cons] at hashless
    simp [Piece.tag] at hashless

/-- What a literal is read as: its characters when no tag is left once texts that escape a tag are
joined, and else the nodes of the pieces. -/
def Interpolates (pieces : List Piece) (last : List Char) (value : Node) : Prop :=
  (joined pieces last).1 = [] ∧
      (∃ source, value = .literal source (.string (String.ofList (plainChars pieces last)))) ∨
    (joined pieces last).1 ≠ [] ∧ ∃ source nodes, value = .interpolated source nodes ∧
      Composes nodes (joined pieces last).1 (joined pieces last).2

/-- A literal is read as raw text and tags once the texts that escape a tag are joined. -/
theorem reads_literal {c : Cursor buffer} (left : c.rest ≠ []) (pieces : List Piece)
    (last : List Char) {rest : List UInt8} (there : c.rest = literal pieces last ++ rest) :
    Reads (string c left) fun value next => Interpolates pieces last value ∧ next.rest = rest := by
  have tail : c.rest.tail = contents pieces last ++ byte '"' :: rest := by
    rw [there]
    simp [literal]
  have understood := readQuoted_contents pieces last rest
  rw [← tail] at understood
  have inner : Reads (nodes none (Cursor.start ⟨buffer.file, template pieces last⟩))
      fun values _ => Composes values (joined pieces last).1 (joined pieces last).2 :=
    reads_nodes_composed (free_joined pieces last) _ (template_joined pieces last).symm
  have decodes : Utf8.decode? (Utf8.encodeChars (plainChars pieces last)) =
      some (String.ofList (plainChars pieces last)) := Utf8.decode?_encodeChars _
  refine (reads_string_of left understood decodes inner (Q := Interpolates pieces last) ?_ ?_).imp ?_
  · intro plain source
    refine .inl ⟨?_, source, rfl⟩
    rcases plain with hashless | ⟨values, composes, raw⟩
    · rw [← template_joined] at hashless
      exact pieces_eq_nil_of_template hashless
    · exact composes.pieces_eq_nil raw
  · intro values composes mixed source
    refine .inr ⟨fun empty => ?_, source, values, rfl, composes⟩
    rw [empty] at composes
    exact absurd composes.all_isRaw (by simp [mixed])
  · rintro value next ⟨holds, rests⟩
    refine ⟨holds, ?_⟩
    rw [rests, tail, List.drop_append, List.drop_eq_nil_of_le (Nat.le_add_right _ _),
      Nat.add_sub_cancel_left]
    rfl

end Stencil.Grammar.Kit
