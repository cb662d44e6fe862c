import Stencil.Proofs.Grammar.Mustache.Sections
import Stencil.Proofs.Grammar.Mustache.Written

/-! # Reading mustache templates

A written tree is read back as the tree. The induction is on how it is written. An element is read
wherever what is behind it lets it end there, which only raw text depends on: it goes on to the next
opener, and in a proper tree it ends in front of one.
-/

namespace Stencil.Grammar.Mustache

open Kit (afterBlanks_append afterBlanks_cons blank_nil blank_space takeWhile_append)

variable {buffer : Buffer} {c : Cursor buffer} {named : NamedPath} {text rest : List UInt8}

/-! ## Names -/

theorem not_isNameByte_of_isAsciiBlank {b : UInt8} (blank : Text.isAsciiBlank b = true) :
    isNameByte b = false := by
  simp only [Text.isAsciiBlank, Bool.or_eq_true, beq_iff_eq] at blank
  rcases blank with (((rfl | rfl) | rfl) | rfl) | rfl <;> decide

theorem not_isAsciiBlank_of_isNameByte {b : UInt8} (letter : isNameByte b = true) :
    Text.isAsciiBlank b = false := by
  cases blank : Text.isAsciiBlank b with
  | false => rfl
  | true => rw [not_isNameByte_of_isAsciiBlank blank] at letter; cases letter

/-- A written name begins with a blank or a byte of the name. -/
theorem WrittenName.head (written : WrittenName named text) :
    ∃ b more, text = b :: more ∧ (Text.isAsciiBlank b = true ∨ isNameByte b = true) := by
  obtain ⟨blankBefore, name, same, blankAfter⟩ := written
  rename_i before after
  obtain ⟨letter, letters, parts⟩ := List.exists_cons_of_ne_nil name.nonempty
  cases before with
  | nil =>
    refine ⟨letter, letters ++ after, by rw [parts]; rfl, .inr ?_⟩
    exact name.inside letter (parts ▸ List.mem_cons_self)
  | cons b more => exact ⟨b, _, rfl, .inl (blankBefore b List.mem_cons_self)⟩

/-- A name is read with the blanks around it. -/
theorem reads_name (written : WrittenName named text)
    (there : c.rest = text ++ byte '\x7d' :: rest) :
    Reads (name c) fun value next => value.2 = named.path ∧ next.rest = byte '\x7d' :: rest := by
  obtain ⟨blankBefore, name, same, blankAfter⟩ := written
  rename_i before after
  have visible : afterBlanks (name.bytes ++ (after ++ byte '\x7d' :: rest)) =
      name.bytes ++ (after ++ byte '\x7d' :: rest) := by
    obtain ⟨letter, letters, parts⟩ := List.exists_cons_of_ne_nil name.nonempty
    have inside := name.inside letter (parts ▸ List.mem_cons_self)
    rw [parts, List.cons_append, afterBlanks_cons _ (not_isAsciiBlank_of_isNameByte inside)]
  have first : c.skipBlanks.rest = name.bytes ++ (after ++ byte '\x7d' :: rest) := by
    rw [Cursor.rest_skipBlanks, there, List.append_assoc, List.append_assoc,
      afterBlanks_append blankBefore, visible]
  have stops : ∀ b ∈ (after ++ byte '\x7d' :: rest).head?, isNameByte b = false := by
    cases after with
    | nil => rintro _ ⟨⟩; decide
    | cons b more =>
      rintro _ ⟨⟩
      exact not_isNameByte_of_isAsciiBlank (blankAfter b List.mem_cons_self)
  have run : c.skipBlanks.run isNameByte = name.bytes := by
    rw [Cursor.run, first]
    exact takeWhile_append name.inside stops
  have last : (c.skipBlanks.skip isNameByte).rest = after ++ byte '\x7d' :: rest := by
    rw [Cursor.skip, run, Cursor.rest_advance, first, List.drop_left]
  have closes : afterBlanks (after ++ byte '\x7d' :: rest) = byte '\x7d' :: rest := by
    rw [afterBlanks_append blankAfter]
    rfl
  have some : c.skipBlanks.run isNameByte ≠ [] := run ▸ name.nonempty
  rw [Mustache.name, dif_neg some]
  refine .of_ok ⟨?_, ?_⟩
  · rw [run]
    exact same
  · rw [Cursor.rest_skipBlanks, last, closes]

/-- A name is read together with the marker that closes its tag. -/
theorem reads_closedName (written : WrittenName named text) {marker : List UInt8}
    (there : c.rest = text ++ byte '\x7d' :: marker ++ rest) (start : Position) :
    Reads (closedName (byte '\x7d' :: marker) start c) fun value next =>
      value.2 = named.path ∧ next.rest = rest := by
  rw [List.append_assoc] at there
  unfold closedName
  refine (reads_name written there).bind ?_
  rintro ⟨value, next, below⟩ ⟨same, after⟩
  have closed : next.beginsWith (byte '\x7d' :: marker) = true := by
    rw [Cursor.beginsWith, after]
    exact List.isPrefixOf_iff_prefix.mpr (List.prefix_append _ rest)
  dsimp only
  rw [if_pos closed]
  refine .of_ok ⟨same, ?_⟩
  rw [Cursor.rest_advance, after]
  exact List.drop_left

/-! ## Pieces -/

theorem rest_opened {more : List UInt8} (there : c.rest = opener ++ more) :
    (c.advance opener.length).rest = more := by
  rw [Cursor.rest_advance, there, List.drop_left]

theorem rest_marked {b : UInt8} {more : List UInt8} (there : c.rest = opener ++ b :: more) :
    ((c.advance opener.length).advance 1).rest = more := by
  rw [Cursor.rest_advance, rest_opened there]
  rfl

theorem rest_ne_nil {more : List UInt8} (there : c.rest = opener ++ more) : c.rest ≠ [] :=
  there ▸ List.cons_ne_nil _ _

theorem piece_opened {more : List UInt8} (left : c.rest ≠ []) (there : c.rest = opener ++ more) :
    piece c left = tag c :=
  dif_pos (there ▸ List.isPrefixOf_iff_prefix.mpr (List.prefix_append opener more))

/-- A tag whose opener no mark follows prints. -/
theorem reads_piece_print (left : c.rest ≠ []) (written : WrittenName named text)
    (there : c.rest = opener ++ (text ++ closer ++ rest)) :
    Reads (piece c left) fun value next => (∃ node, value = .node node ∧
      node.bare = .tag nowhere "" [.identifier nowhere named.path] none) ∧ next.rest = rest := by
  have inner := rest_opened there
  obtain ⟨b, more, rfl, opens⟩ := written.head
  have unmarked : b ≠ byte '\x7b' ∧ b ≠ byte '#' ∧ b ≠ byte '/' := by
    refine ⟨?_, ?_, ?_⟩ <;> rintro rfl <;> rcases opens with blank | letter <;> contradiction
  rw [piece_opened left there, tag]
  simp only [inner, List.cons_append, List.head?_cons]
  rw [if_neg unmarked.1, if_neg unmarked.2.1, if_neg unmarked.2.2]
  exact (reads_closedName written inner c.position).bind fun read holds =>
    .of_ok ⟨⟨_, rfl, by rw [← holds.1]; rfl⟩, holds.2⟩

/-- A tag of three braces is read as its name, printed as it is. -/
theorem reads_piece_get (left : c.rest ≠ []) (written : WrittenName named text)
    (there : c.rest = opener ++ byte '\x7b' :: (text ++ byte '\x7d' :: closer ++ rest)) :
    Reads (piece c left) fun value next => (∃ node, value = .node node ∧
      node.bare = .tag nowhere "get" [.identifier nowhere named.path] none) ∧ next.rest = rest := by
  rw [piece_opened left there, tag]
  simp only [rest_opened there, List.head?_cons]
  rw [if_pos trivial]
  exact (reads_closedName written (rest_marked there) c.position).bind fun read holds =>
    .of_ok ⟨⟨_, rfl, by rw [← holds.1]; rfl⟩, holds.2⟩

/-- An opening is read as its name. -/
theorem reads_piece_opening (left : c.rest ≠ []) (written : WrittenName named text)
    (there : c.rest = opener ++ byte '#' :: (text ++ closer ++ rest)) :
    Reads (piece c left) fun value next =>
      (∃ start place, value = .opening start place named.path) ∧ next.rest = rest := by
  rw [piece_opened left there, tag]
  simp only [rest_opened there, List.head?_cons]
  rw [if_neg (by decide), if_pos trivial]
  exact (reads_closedName written (rest_marked there) c.position).bind fun read holds =>
    .of_ok ⟨⟨_, _, by rw [← holds.1]; rfl⟩, holds.2⟩

theorem reads_piece_closing (left : c.rest ≠ []) (written : WrittenName named text)
    (there : c.rest = opener ++ byte '/' :: (text ++ closer ++ rest)) :
    Reads (piece c left) fun value next =>
      (∃ source, value = .closing source named.path) ∧ next.rest = rest := by
  rw [piece_opened left there, tag]
  simp only [rest_opened there, List.head?_cons]
  rw [if_neg (by decide), if_neg (by decide), if_pos trivial]
  exact (reads_closedName written (rest_marked there) c.position).bind fun read holds =>
    .of_ok ⟨⟨_, by rw [← holds.1]; rfl⟩, holds.2⟩

/-- Here ends the text, or a tag begins. -/
def Stops (rest : List UInt8) : Prop := rest = [] ∨ opener <+: rest

theorem not_opener_prefix {b : UInt8} {bytes : List UInt8} (unopened : ¬ opener <:+: b :: bytes)
    (unended : rest ≠ [] → (b :: bytes).getLast? ≠ some (byte '\x7b')) :
    ¬ opener <+: b :: (bytes ++ rest) := by
  intro opens
  obtain ⟨rfl, second⟩ := List.cons_prefix_cons.mp opens
  cases bytes with
  | nil =>
    have further : rest ≠ [] := by
      rintro rfl
      cases List.prefix_nil.mp second
    exact unended further rfl
  | cons b' more =>
    obtain ⟨rfl, -⟩ := List.cons_prefix_cons.mp second
    exact unopened ⟨[], more, rfl⟩

/-- Raw text goes on over what opens nothing to where it stops. -/
theorem rawLength_append {bytes : List UInt8} (unopened : ¬ opener <:+: bytes)
    (unended : rest ≠ [] → bytes.getLast? ≠ some (byte '\x7b')) (stops : Stops rest) :
    rawLength (bytes ++ rest) = bytes.length := by
  induction bytes with
  | nil =>
    cases rest with
    | nil => rfl
    | cons b more =>
      obtain opens := stops.resolve_left (List.cons_ne_nil _ _)
      exact if_pos (List.isPrefixOf_iff_prefix.mpr opens)
  | cons b bytes ih =>
    have goesOn : ¬ opener <+: b :: (bytes ++ rest) := not_opener_prefix unopened unended
    have length := ih (fun opens => unopened (List.infix_cons opens)) fun more last =>
      unended more (by
        cases bytes with
        | nil => cases last
        | cons b' more => rw [List.getLast?_cons_cons, last])
    rw [List.cons_append, rawLength, if_neg (fun opens =>
      goesOn (List.isPrefixOf_iff_prefix.mp opens)), length, List.length_cons]

/-- Bytes that open nothing are read as one raw node. -/
theorem reads_piece_raw (left : c.rest ≠ []) {bytes : List UInt8} (nonempty : bytes ≠ [])
    (unopened : ¬ opener <:+: bytes)
    (unended : rest ≠ [] → bytes.getLast? ≠ some (byte '\x7b'))
    (there : c.rest = bytes ++ rest) (stops : Stops rest) : Reads (piece c left) fun value next =>
      (∃ node, value = .node node ∧ node.bare = .raw nowhere bytes) ∧ next.rest = rest := by
  obtain ⟨b, more, parts⟩ := List.exists_cons_of_ne_nil nonempty
  have plain : ¬ opener.isPrefixOf c.rest = true := by
    rw [there, parts, List.isPrefixOf_iff_prefix]
    exact not_opener_prefix (parts ▸ unopened) (parts ▸ unended)
  have length : rawLength c.rest = bytes.length := there ▸ rawLength_append unopened unended stops
  have taken : c.rest.take (rawLength c.rest) = bytes := by
    rw [length, there, List.take_left]
  rw [piece, dif_neg plain]
  refine .of_ok ⟨⟨_, rfl, congrArg (Node.raw nowhere) taken⟩, ?_⟩
  change (c.advance (rawLength c.rest)).rest = rest
  rw [Cursor.rest_advance, length, there, List.drop_left]

/-! ## Nodes -/

section

variable {open? : Option Path} {Q : List Node → Cursor buffer → Prop}

/-- A node and those after it. -/
theorem reads_nodes_node {bare : Node} (left : c.rest ≠ [])
    (read : Reads (piece c left) fun value next =>
      (∃ node, value = .node node ∧ node.bare = bare) ∧ next.rest = rest)
    (goesOn : ∀ node (next : Cursor buffer), node.bare = bare → next.rest = rest →
      Reads (nodes open? next) fun others last => Q (node :: others) last) :
    Reads (nodes open? c) Q := by
  obtain ⟨⟨_, next, below⟩, found, ⟨node, rfl, same⟩, after⟩ := read
  rw [nodes_node found]
  exact (goesOn node next same after).bind fun others last => .of_ok last

/-- A section and the nodes after it. -/
theorem reads_nodes_opening {path : Path} {P : List Node → Cursor buffer → Prop}
    (left : c.rest ≠ [])
    (read : Reads (piece c left) fun value next =>
      (∃ start place, value = .opening start place path) ∧ next.rest = rest)
    (block : ∀ next : Cursor buffer, next.rest = rest → Reads (nodes (some path) next) P)
    (goesOn : ∀ source place body (next : Cursor buffer), P body next →
      Reads (nodes open? next) fun others last =>
        Q (.conditional source (.identifier place path) body [] :: others) last) :
    Reads (nodes open? c) Q := by
  obtain ⟨⟨_, next, below⟩, found, ⟨start, place, rfl⟩, after⟩ := read
  rw [nodes_opening found]
  exact (block next after).bind fun body inside =>
    (goesOn _ place body.value body.next inside).bind fun others last => .of_ok last

/-- A close of the open section ends its nodes. -/
theorem reads_nodes_closing {path : Path} (left : c.rest ≠ [])
    (read : Reads (piece c left) fun value next =>
      (∃ source, value = .closing source path) ∧ next.rest = rest) :
    Reads (nodes (some path) c) fun values next => values = [] ∧ next.rest = rest := by
  obtain ⟨⟨_, next, below⟩, found, ⟨source, rfl⟩, after⟩ := read
  rw [nodes_closed found]
  exact .of_ok ⟨rfl, after⟩

end

/-! ## Elements -/

/-- What stands behind an element lets it end there. -/
def Element.Follows (rest : List UInt8) : Element → Prop
  | .raw _ => Stops rest
  | _ => True

/-- The text is read as the node of the element, and reading goes on behind it. -/
def ReadsElement (e : Element) (text : List UInt8) : Prop :=
  ∀ (buffer : Buffer) (open? : Option Path) (c : Cursor buffer) (rest : List UInt8)
    (Q : List Node → Cursor buffer → Prop), c.rest = text ++ rest → e.Follows rest →
      (∀ node (next : Cursor buffer), node.bare = e.node → next.rest = rest →
        Reads (nodes open? next) fun others last => Q (node :: others) last) →
      Reads (nodes open? c) Q

/-- Here ends the template, or the close of the open section stands. -/
def Ending (open? : Option Path) (rest behind : List UInt8) : Prop :=
  match open? with
  | none => rest = [] ∧ behind = []
  | some path => ∃ (named : NamedPath) (last : List UInt8), named.path = path ∧
      WrittenName named last ∧ rest = opener ++ byte '/' :: (last ++ closer ++ behind)

/-- The text is read as the nodes of the elements where they end. -/
def ReadsElements (elements : List Element) (text : List UInt8) : Prop :=
  ∀ (buffer : Buffer) (open? : Option Path) (c : Cursor buffer) (rest behind : List UInt8),
    c.rest = text ++ rest → Ending open? rest behind →
      Reads (nodes open? c) fun values next =>
        Node.bareAll values = Element.nodes elements ∧ next.rest = behind

theorem Ending.stops {open? : Option Path} {behind : List UInt8}
    (ending : Ending open? rest behind) : Stops rest := by
  cases open? with
  | none => exact .inl ending.1
  | some path =>
    obtain ⟨named, last, -, -, rfl⟩ := ending
    exact .inr (List.prefix_append _ _)

namespace ReadsElement

variable {named : NamedPath} {inner : List UInt8}

theorem raw (data : PlainText) : ReadsElement (.raw data) data.bytes := by
  intro buffer open? c rest Q there stops goesOn
  have left : c.rest ≠ [] := by simp [there, data.nonempty]
  have read := reads_piece_raw left data.nonempty data.unopened (fun _ => data.unended) there stops
  exact reads_nodes_node left read goesOn

theorem print (written : WrittenName named inner) :
    ReadsElement (.print named) (opener ++ (inner ++ closer)) := by
  intro buffer open? c rest Q there _ goesOn
  rw [List.append_assoc] at there
  have left := rest_ne_nil there
  exact reads_nodes_node left (reads_piece_print left written there) goesOn

theorem get (written : WrittenName named inner) :
    ReadsElement (.get named) (opener ++ byte '\x7b' :: (inner ++ byte '\x7d' :: closer)) := by
  intro buffer open? c rest Q there _ goesOn
  rw [List.append_assoc] at there
  have left := rest_ne_nil there
  exact reads_nodes_node left (reads_piece_get left written there) goesOn

/-- A section is read as written, from its opening to its close. -/
theorem block {body : List Element} {first text last : List UInt8} (opens : WrittenName named first)
    (inside : ReadsElements body text) (closes : WrittenName named last) :
    ReadsElement (.block named body) (opener ++ byte '#' ::
      (first ++ closer ++ (text ++ (opener ++ byte '/' :: (last ++ closer))))) := by
  intro buffer open? c rest Q there _ goesOn
  have there' : c.rest = opener ++ byte '#' ::
      (first ++ closer ++ (text ++ (opener ++ byte '/' :: (last ++ closer ++ rest)))) := by
    simpa using there
  have left := rest_ne_nil there'
  refine reads_nodes_opening left (reads_piece_opening left opens there') (fun next after =>
    inside buffer (some named.path) next _ rest after ⟨named, last, rfl, closes, rfl⟩) ?_
  rintro source place values next ⟨same, after⟩
  refine goesOn _ next ?_ after
  rw [Node.bare, Node.bare, same, Node.bareBranches]
  rfl

end ReadsElement

namespace ReadsElements

theorem nil : ReadsElements [] [] := by
  intro buffer open? c rest behind there ending
  cases open? with
  | none =>
    obtain ⟨rfl, rfl⟩ := ending
    rw [nodes_atEnd there]
    exact .of_ok ⟨rfl, there⟩
  | some path =>
    obtain ⟨named, last, rfl, closes, rfl⟩ := ending
    have left := rest_ne_nil there
    refine (reads_nodes_closing left (reads_piece_closing left closes there)).imp ?_
    rintro _ next ⟨rfl, after⟩
    exact ⟨rfl, after⟩

end ReadsElements

/-- All elements but raw text begin with an opener. -/
theorem WrittenElement.opens {e : Element} {text : List UInt8} (written : WrittenElement e text)
    (tag : ∀ data, e ≠ .raw data) : opener <+: text := by
  cases written with
  | raw data => exact absurd rfl (tag data)
  | print name => exact List.prefix_append _ _
  | get name => exact List.prefix_append _ _
  | block opens inside closes => exact List.prefix_append _ _

/-- What stands behind an element of a proper tree lets it end there. -/
theorem WrittenElements.follows {e : Element} {elements : List Element} {text rest : List UInt8}
    (written : WrittenElements elements text) (joins : ∀ e' ∈ elements.head?, e.Joins e')
    (stops : Stops rest) : e.Follows (text ++ rest) := by
  cases e with
  | raw data =>
    cases written with
    | nil => exact stops
    | @cons e' others first _ written following =>
      have tag : ∀ data', e' ≠ .raw data' := by
        rintro data' rfl
        exact joins _ rfl
      rw [List.append_assoc]
      exact .inr ((written.opens tag).trans (List.prefix_append _ _))
  | print named => trivial
  | get named => trivial
  | block named body => trivial

/-- An element is read before others as long as it may stand there. -/
theorem ReadsElements.cons {e : Element} {elements : List Element} {text others : List UInt8}
    (following : WrittenElements elements others) (joins : ∀ e' ∈ elements.head?, e.Joins e')
    (read : ReadsElement e text) (readOthers : ReadsElements elements others) :
    ReadsElements (e :: elements) (text ++ others) := by
  intro buffer open? c rest behind there ending
  rw [List.append_assoc] at there
  refine read buffer open? c (others ++ rest) _ there (following.follows joins ending.stops) ?_
  intro node next same after
  refine (readOthers buffer open? next rest behind after ending).imp ?_
  rintro values last ⟨all, rests⟩
  refine ⟨?_, rests⟩
  rw [Node.bareAll, same, all]
  rfl

mutual

/-- Whatever way an element is written, it is read back. -/
theorem WrittenElement.reads {e : Element} {text : List UInt8} :
    WrittenElement e text → e.Proper → ReadsElement e text
  | .raw data, _ => .raw data
  | .print name, _ => .print name
  | .get name, _ => .get name
  | .block opens inside closes, proper => .block opens (inside.reads proper) closes

/-- Whatever way proper elements are written, they are read back. -/
theorem WrittenElements.reads {elements : List Element} {text : List UInt8} :
    WrittenElements elements text → Element.ProperAll elements → ReadsElements elements text
  | .nil, _ => .nil
  | .cons first following, proper =>
    .cons following proper.2.1 (first.reads proper.1) (following.reads proper.2.2)

end

/-- A tree is printed in one of the ways to write it, and a template that writes a proper tree in
any way is parsed as that tree. -/
theorem parse_writtenElements (file : String) (elements : List Element) :
    WrittenElements elements (Element.printedAll elements) ∧
      (Element.ProperAll elements → ∀ text, WrittenElements elements text →
        ∃ values, parse ⟨file, text⟩ = .ok values ∧
          Node.bareAll values = Element.nodes elements) := by
  refine ⟨Element.written_printedAll elements, fun proper text written => ?_⟩
  obtain ⟨reading, parsed, same, -⟩ := written.reads proper ⟨file, text⟩ none (Cursor.start _) [] []
    (List.append_nil text).symm ⟨rfl, rfl⟩
  refine ⟨reading.value, ?_, same⟩
  rw [parse, parsed]
  rfl

private def spelled (cs : List Char) (some : cs.map byte ≠ [])
    (inside : ∀ b ∈ cs.map byte, isNameByte b = true) : Name := ⟨cs.map byte, some, inside⟩

private def keyPath : NamedPath :=
  ⟨⟨[.key "x"]⟩, spelled ['x'] (by decide) (by decide), by decide⟩

private def indexPath : NamedPath :=
  ⟨⟨[.index 0]⟩, spelled ['.', '0'] (by decide) (by decide), by decide⟩

private def letterText : PlainText := ⟨[byte 'a'], List.cons_ne_nil _ _, by decide, by decide⟩

/-- A section inside of one on the same path, with names that are spelled in different ways. -/
theorem parse_writtenElements_nested :
    ∃ values, parse ⟨"page", ("\x7b\x7b#x\x7d\x7da\x7b\x7b# x \x7d\x7d" ++
        "\x7b\x7b\x7b.0\x7d\x7d\x7d\x7b\x7b/x.\x7d\x7d\x7b\x7b/x\x7d\x7d").toList.map byte⟩ =
        .ok values ∧
      Node.bareAll values = Element.nodes
        [.block keyPath [.raw letterText, .block keyPath [.get indexPath]]] := by
  have plain : WrittenName keyPath [byte 'x'] :=
    .padded blank_nil keyPath.name keyPath.path_name blank_nil
  have spaced : WrittenName keyPath [byte ' ', byte 'x', byte ' '] := keyPath.written_spaced
  have longer : WrittenName keyPath [byte 'x', byte '.'] :=
    .padded blank_nil (spelled ['x', '.'] (by decide) (by decide)) (by decide) blank_nil
  have index : WrittenName indexPath [byte '.', byte '0'] :=
    .padded blank_nil (spelled ['.', '0'] (by decide) (by decide)) (by decide) blank_nil
  have inner := WrittenElement.block spaced (.cons (.get index) .nil) longer
  have outer := WrittenElement.block plain (.cons (.raw letterText) (.cons inner .nil)) plain
  refine (parse_writtenElements "page" _).2 ?_ _ (.cons outer .nil)
  refine ⟨⟨trivial, ?_, ⟨trivial, nofun, trivial⟩, nofun, trivial⟩, nofun, trivial⟩
  rintro _ ⟨⟩
  trivial

end Stencil.Grammar.Mustache
