import Stencil.Proofs.Grammar.Kit.Precedence

/-! # Reading operands

The tightest expressions: constants, paths and calls, and with them the arguments of a call. A call
holds expressions again, so that all expressions and all arguments are read back by one induction
on how they are written.
-/

namespace Stencil.Grammar.Kit

variable {buffer : Buffer}

/-! ## Constants and paths -/

theorem begins_signed (i : Int) : Begins 7 ((Decimal.signed i).map byte) := by
  obtain ⟨sign, ds, parts, signed, digits, some⟩ := signed_parts i
  obtain ⟨d, more, rfl⟩ := List.exists_cons_of_ne_nil some
  rw [parts]
  rcases signed with rfl | ⟨rfl, -⟩
  · exact ⟨_, _, rfl, .inr (.inr (.inl (by simp)))⟩
  · exact ⟨d, more, rfl, .inr (.inl (digits d List.mem_cons_self))⟩

theorem Word.begins (word : Word) : Begins 7 word.bytes := by
  obtain ⟨bytes, opens, inside⟩ := word
  cases bytes with
  | nil => simp at opens
  | cons b more => exact ⟨b, more, rfl, .inl (by simpa using opens)⟩

theorem Word.opens_append (word : Word) (rest : List UInt8) :
    (word.bytes ++ rest).head?.any opensWord = true := by
  obtain ⟨b, more, parts, -⟩ := word.begins
  have opens := word.opens
  rw [parts] at opens ⊢
  exact opens

namespace Readable

/-- An integer literal is read as its integer. -/
theorem int (i : Int64) : Readable 7 (Expr.int i).Matches (Utf8.encode (toString i.toInt)) := by
  have begins : Begins 7 (Utf8.encode (toString i.toInt)) :=
    encode_toString i.toInt ▸ begins_signed i.toInt
  refine .of_atom begins fun buffer c rest there ends => ?_
  have left : c.rest ≠ [] := there ▸ (begins.append rest).ne_nil
  have ahead : numberAhead c.rest = true := by
    rw [there, encode_toString]
    exact numberAhead_signed _ _
  exact reads_atom_number left ahead (reads_number left there ends)

/-- A literal is read from its quote on. -/
theorem of_string {P : Node → Prop} {text : List UInt8}
    (read : ∀ (buffer : Buffer) (c : Cursor buffer) (left : c.rest ≠ []) (rest : List UInt8),
      c.rest = byte '"' :: text ++ rest →
        Reads (Kit.string c left) fun value next => P value ∧ next.rest = rest) :
    Readable 7 P (byte '"' :: text) := by
  have begins : Begins 7 (byte '"' :: text) := ⟨_, _, rfl, .inr (.inr (.inl (by simp)))⟩
  refine .of_atom begins fun buffer c rest there ends => ?_
  have left : c.rest ≠ [] := there ▸ (begins.append rest).ne_nil
  exact reads_atom_string left (by rw [there]; rfl) (read buffer c left rest there)

/-- A string literal is read as its text. -/
theorem string (s : String) : Readable 7 (Expr.string s).Matches (quoted s) :=
  of_string fun _ _ left _ there => reads_string left there

end Readable

/-- A word that is no call is read as a truth value or a path. -/
theorem reads_atom_path {c : Cursor buffer} {word : Word} {rest : List UInt8}
    (there : c.rest = word.bytes ++ rest) (ends : Ends rest) :
    Reads (atom c) fun value next =>
      (∃ source, value = wordNode source word.text) ∧ next.rest = rest := by
  have left : c.rest ≠ [] := there ▸ (word.begins.append rest).ne_nil
  exact reads_atom_word left (there ▸ word.opens_append rest) (reads_path left there ends)

def truth (b : Bool) : Word where
  bytes := Utf8.encode (toString b)
  opens := by cases b <;> decide
  inside := by cases b <;> decide

namespace Readable

/-- A path is read as one. -/
theorem path (name : Identifier) : Readable 7 (Expr.path name).Matches name.bytes := by
  refine .of_atom name.begins fun buffer c rest there ends => (reads_atom_path there ends).imp ?_
  rintro _ next ⟨⟨source, rfl⟩, rests⟩
  rw [wordNode, if_neg name.notTrue, if_neg name.notFalse]
  exact ⟨rfl, rests⟩

theorem bool (b : Bool) : Readable 7 (Expr.bool b).Matches (Utf8.encode (toString b)) := by
  refine .of_atom (truth b).begins fun buffer c rest there ends =>
    (@reads_atom_path buffer c (truth b) rest there ends).imp ?_
  rintro _ next ⟨⟨source, rfl⟩, rests⟩
  refine ⟨?_, rests⟩
  cases b <;> rfl

end Readable

/-! ## Arguments -/

/-- The text is read as a list of arguments, of which there is at least one. -/
structure ReadsList (es : List Expr) (text : List UInt8) : Prop where
  opens : ∀ rest, (afterBlanks (text ++ rest)).head? ≠ some (byte ')')
  list : ∀ (buffer : Buffer) (start : Position) (c : Cursor buffer) (rest : List UInt8),
    afterBlanks c.rest = afterBlanks (text ++ byte ')' :: rest) →
      Reads (argumentList start c) fun values next =>
        Node.bareAll values = Expr.nodes es ∧ next.rest = rest

/-- The text between parentheses is read as arguments. -/
def ReadsArguments (es : List Expr) (text : List UInt8) : Prop :=
  ∀ (buffer : Buffer) (c : Cursor buffer) (rest : List UInt8),
    c.rest = byte '(' :: (text ++ byte ')' :: rest) →
      Reads (arguments c) fun values next =>
        Node.bareAll values = Expr.nodes es ∧ next.rest = rest

section

variable {P : Node → Prop} {e : Expr} {before text after : List UInt8}

theorem opens_of_begins (blankBefore : Blank before) (begins : Begins 0 text) (rest : List UInt8) :
    (afterBlanks (before ++ text ++ after ++ rest)).head? ≠ some (byte ')') := by
  rw [List.append_assoc, List.append_assoc, afterBlanks_append blankBefore,
    (begins.append _).afterBlanks]
  exact (begins.append _).head_ne_close

/-- A last argument is read with blanks around it. -/
theorem ReadsList.last (blankBefore : Blank before) (readable : Readable 0 e.Matches text)
    (blankAfter : Blank after) : ReadsList [e] (before ++ text ++ after) := by
  refine ⟨opens_of_begins blankBefore readable.begins, fun buffer start c rest there => ?_⟩
  have read := readable.expression blankBefore blankAfter (.inl rfl) there
  refine (reads_argumentList_last read).imp ?_
  rintro _ next ⟨⟨value, rfl, same⟩, rests⟩
  exact ⟨by rw [Node.bareAll, same]; rfl, rests⟩

/-- A further argument is read before a comma. -/
theorem ReadsList.more {e' : Expr} {es : List Expr} {others : List UInt8}
    (blankBefore : Blank before) (readable : Readable 0 e.Matches text)
    (blankAfter : Blank after) (following : ReadsList (e' :: es) others) :
    ReadsList (e :: e' :: es) (before ++ text ++ after ++ byte ',' :: others) := by
  refine ⟨fun rest => ?_, fun buffer start c rest there => ?_⟩
  · rw [List.append_assoc]
    exact opens_of_begins blankBefore readable.begins _
  · rw [List.append_assoc] at there
    have read := readable.expression blankBefore blankAfter (.inr rfl) there
    refine (reads_argumentList_more read fun c' after =>
      following.list buffer start c' rest (congrArg _ after)).imp ?_
    rintro _ next ⟨value, values, rfl, same, ⟨all, rests⟩⟩
    exact ⟨by rw [Node.bareAll, same, all]; rfl, rests⟩

theorem ReadsArguments.none {gap : List UInt8} (blank : Blank gap) : ReadsArguments [] gap := by
  intro buffer c rest there
  have empty : afterBlanks (gap ++ byte ')' :: rest) = byte ')' :: rest := by
    rw [afterBlanks_append blank, afterBlanks_cons _ (by decide)]
  refine (reads_arguments_none there empty).imp ?_
  rintro _ next ⟨rfl, rests⟩
  exact ⟨rfl, rests⟩

theorem ReadsList.arguments {es : List Expr} (read : ReadsList es text) :
    ReadsArguments es text := by
  intro buffer c rest there
  refine reads_arguments_some there (read.opens _) fun start first same => ?_
  exact read.list buffer start first rest (by rw [same, afterBlanks_idem])

theorem ReadsArguments.of_list {es : List Expr} (written : WrittenArguments es text)
    (list : es ≠ [] → ReadsList es text) : ReadsArguments es text := by
  cases written with
  | none blank => exact .none blank
  | last => exact (list (List.cons_ne_nil _ _)).arguments
  | more => exact (list (List.cons_ne_nil _ _)).arguments

/-- One argument with blanks around it. -/
theorem reads_oneArgument (blankBefore : Blank before) (readable : Readable 0 P text)
    (blankAfter : Blank after) {c : Cursor buffer} {rest : List UInt8} (construct : Construct)
    (start : Position)
    (there : c.rest = byte '(' :: (before ++ text ++ after ++ byte ')' :: rest)) :
    Reads (oneArgument construct start c) fun value next => P value ∧ next.rest = rest := by
  rw [oneArgument]
  have one : Reads (arguments c) fun values next =>
      (∃ value, values = [value] ∧ P value) ∧ next.rest = rest := by
    refine reads_arguments_some there (opens_of_begins blankBefore readable.begins _)
      fun start first same => reads_argumentList_last ?_
    exact readable.expression blankBefore blankAfter (.inl rfl) (by rw [same, afterBlanks_idem])
  refine one.bind ?_
  rintro ⟨values, next, below⟩ ⟨⟨value, rfl, same⟩, rests⟩
  exact .of_ok ⟨same, rests⟩

/-- A tag that prints one argument. -/
theorem reads_tag_print (blankBefore : Blank before) (readable : Readable 0 P text)
    (blankAfter : Blank after) {c : Cursor buffer} {rest : List UInt8} (left : c.rest ≠ [])
    (there : c.rest = byte '#' :: byte '(' :: (before ++ text ++ after ++ byte ')' :: rest)) :
    Reads (tag c left) fun node next =>
      (∃ source value, node = .tag source "" [value] none ∧ P value) ∧ next.rest = rest := by
  have hash : (c.advance 1).rest = byte '(' :: (before ++ text ++ after ++ byte ')' :: rest) := by
    rw [Cursor.rest_advance, there]
    rfl
  have opened : (pop c left).next.rest.head? = some (byte '(') := congrArg List.head? hash
  rw [tag]
  dsimp only
  rw [if_pos opened]
  refine (reads_oneArgument blankBefore readable blankAfter _ _ hash).bind ?_
  rintro ⟨value, next, below⟩ ⟨same, rests⟩
  exact .of_ok ⟨⟨_, value, rfl, same⟩, rests⟩

/-- A template that is one tag that prints one argument. -/
theorem parse_print (file : String) (blankBefore : Blank before) (readable : Readable 0 P text)
    (blankAfter : Blank after) :
    ∃ source value,
      parse ⟨file, byte '#' :: byte '(' :: (before ++ text ++ after ++ [byte ')'])⟩ =
        .ok [.tag source "" [value] none] ∧ P value := by
  let buffer : Buffer := ⟨file, byte '#' :: byte '(' :: (before ++ text ++ after ++ [byte ')'])⟩
  have left : (Cursor.start buffer).rest ≠ [] := List.cons_ne_nil _ _
  have read : Reads (nodes none (Cursor.start buffer)) fun values _ =>
      ∃ source value, values = [.tag source "" [value] none] ∧ P value := by
    refine reads_nodes_cons left (by simp) (reads_unit_tag left rfl
      (reads_tag_print blankBefore readable blankAfter left rfl)) ?_
    rintro _ next ⟨⟨source, value, rfl, same⟩, atEnd⟩
    refine (reads_nodes_end atEnd).imp ?_
    rintro _ last ⟨rfl, -⟩
    exact ⟨source, value, rfl, same⟩
  obtain ⟨values, parsed, source, value, rfl, same⟩ := parse_of_reads read
  exact ⟨source, value, parsed, same⟩

end

/-! ## Calls -/

/-- A call is read with its name and its arguments. -/
theorem Readable.call (name : CallName) {es : List Expr} {text : List UInt8}
    (read : ReadsArguments es text) :
    Readable 7 (Expr.call name es).Matches (name.bytes ++ byte '(' :: text ++ [byte ')']) := by
  have begins : Begins 7 (name.bytes ++ byte '(' :: text ++ [byte ')']) :=
    (name.begins.append _).append _
  refine .of_atom begins fun buffer c rest there ends => ?_
  have whole : c.rest = name.bytes ++ byte '(' :: (text ++ byte ')' :: rest) := by
    simpa using there
  have left : c.rest ≠ [] := there ▸ (begins.append rest).ne_nil
  refine reads_atom_word left (whole ▸ name.opens_append _)
    ((reads_call left whole fun c' after => read buffer c' rest after).imp ?_)
  rintro _ next ⟨source, values, rfl, same, rests⟩
  refine ⟨?_, rests⟩
  rw [Expr.Matches, Node.bare, same, Expr.node]

/-! ## All expressions -/

mutual

/-- Whatever way an expression is written, it is read back. -/
theorem Written.readable {p : Nat} {e : Expr} {text : List UInt8} :
    Written p e text → Readable p e.Matches text
  | .int i => .int i
  | .bool b => .bool b
  | .string s => .string s
  | .path name => .path name
  | .call name inside => .call name (.of_list inside inside.readsList)
  | .group blankBefore inside blankAfter => .group blankBefore inside.readable blankAfter
  | .negation blank operand => .negation blank operand.readable
  | .infixOp leftOperand blankBefore blankAfter rightOperand =>
    .infixOp leftOperand.readable blankBefore blankAfter rightOperand.readable
  | .looser tighter => tighter.readable.looser

/-- Whatever way arguments are written, if there are any, they are read back as a list. -/
theorem WrittenArguments.readsList {es : List Expr} {text : List UInt8} :
    WrittenArguments es text → es ≠ [] → ReadsList es text
  | .none _, left => absurd rfl left
  | .last blankBefore argument blankAfter, _ => .last blankBefore argument.readable blankAfter
  | .more blankBefore argument blankAfter following, _ =>
    .more blankBefore argument.readable blankAfter (following.readsList (List.cons_ne_nil _ _))

end

/-- Whatever way arguments are written, they are read back. -/
theorem WrittenArguments.reads {es : List Expr} {text : List UInt8}
    (written : WrittenArguments es text) : ReadsArguments es text :=
  .of_list written written.readsList

/-- Every expression can be written, and a tag around any way of writing it, with any blanks and
any parentheses more than it needs, is parsed as a tag of that expression. -/
theorem parse_written (file : String) (e : Expr) :
    (∃ text, Written 0 e text) ∧
      ∀ before text after, Blank before → Written 0 e text → Blank after →
        ∃ source value,
          parse ⟨file, byte '#' :: byte '(' :: (before ++ text ++ after ++ [byte ')'])⟩ =
            .ok [.tag source "" [value] none] ∧ value.bare = e.node := by
  constructor
  · obtain ⟨text, written⟩ := e.exists_written
    exact ⟨text, written.loosen (by decide)⟩
  · intro before text after blankBefore written blankAfter
    exact parse_print file blankBefore written.readable blankAfter

def letter (c : Char) (opens : opensWord (byte c) = true) (ends : isWordByte (byte c) = true)
    (other : asciiText [byte c] ≠ "true" ∧ asciiText [byte c] ≠ "false") : Identifier where
  bytes := [byte c]
  opens := by simpa using opens
  inside := by simpa using ends
  notTrue := other.1
  notFalse := other.2

/-- Differences associate to the left, and a negation is read before them. -/
theorem parse_written_differences :
    let a := letter 'a' (by decide) (by decide) (by decide)
    let b := letter 'b' (by decide) (by decide) (by decide)
    ∃ source value,
      parse ⟨"page", "#( a-b - !a)".toList.map byte⟩ = .ok [.tag source "" [value] none] ∧
        value.bare = (Expr.infixOp .subtract (.infixOp .subtract (.path a) (.path b))
          (.negation (.path a))).node := by
  intro a b
  have difference : Written 4 (.infixOp .subtract (.path a) (.path b)) ("a-b".toList.map byte) :=
    @Written.infixOp .subtract _ _ _ [] [] _ ((Written.path a).loosen (by decide)) blank_nil
      blank_nil ((Written.path b).loosen (by decide))
  have negation : Written 5 (.negation (.path a)) ("!a".toList.map byte) :=
    .looser (@Written.negation _ [] _ blank_nil ((Written.path a).loosen (by decide)))
  have written := @Written.infixOp .subtract _ _ _ _ _ _ difference blank_space blank_space negation
  exact (parse_written "page" _).2 [byte ' '] _ [] blank_space (written.loosen (by decide)) blank_nil

end Stencil.Grammar.Kit
