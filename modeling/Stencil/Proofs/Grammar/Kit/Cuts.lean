import Stencil.Proofs.Grammar.Kit.Spans

/-! # Kit templates are cut at ASCII

Raw text ends in front of a byte of ASCII, and everything else ends behind one. So the raw nodes of
a template that is a text hold texts. The same is so of the template that a string literal holds:
it differs from the text of the literal by bytes of ASCII only.
-/

namespace Stencil.Grammar.Kit

open Node (LegibleAll Tidy)

variable {buffer : Buffer} {c : Cursor buffer}

/-! ## Raw text and string literals -/

/-- Raw text ends before a byte of ASCII, so no character is cut. -/
theorem cut_of_rawEnds {inBody : Bool} {rest : List UInt8} (ends : rawEnds inBody rest = true) :
    Utf8.Cut rest := by
  cases rest with
  | nil => exact Utf8.cut_nil
  | cons b rest =>
    rw [Utf8.cut_cons]
    simp only [rawEnds, Bool.or_eq_true, Bool.and_eq_true, List.head?_cons] at ends
    rcases ends with (⟨-, brace⟩ | escape) | tag
    · simp only [beq_iff_eq, Option.some.injEq] at brace
      subst brace
      decide
    · cases rest with
      | nil => cases escape
      | cons b' more =>
        simp only [escapeAhead, Bool.and_eq_true, beq_iff_eq] at escape
        rw [escape.1]
        decide
    · cases rest with
      | nil => cases tag
      | cons b' more =>
        simp only [tagAhead, Bool.and_eq_true, beq_iff_eq] at tag
        rw [tag.1]
        decide

/-- What raw text leaves begins with no part of a character. -/
theorem cut_drop_rawLength (inBody : Bool) (rest : List UInt8) :
    Utf8.Cut (rest.drop (rawLength inBody rest)) := by
  induction rest with
  | nil => exact Utf8.cut_nil
  | cons b rest ih =>
    rw [rawLength]
    split
    · rename_i ends
      exact cut_of_rawEnds ends
    · exact ih

/-- Raw text of a text is a text, and so is what stands behind it. -/
theorem rawText_legible (inBody : Bool) (left : c.rest ≠ []) (valid : Utf8.Valid c.rest) :
    (rawText inBody c left).value.Legible ∧ Utf8.Valid (rawText inBody c left).next.rest := by
  obtain ⟨b, rest, whole⟩ := List.exists_cons_of_ne_nil left
  have cut : Utf8.Cut (c.rest.drop (rawLength inBody c.rest.tail + 1)) := by
    rw [whole]
    exact cut_drop_rawLength inBody rest
  apply cut.valid
  rwa [List.take_append_drop]

theorem escaped_legible (left : c.rest ≠ []) (ahead : escapeAhead c.rest = true)
    (valid : Utf8.Valid c.rest) :
    (escaped c left).value.Legible ∧ Utf8.Valid (escaped c left).next.rest := by
  have hash : Utf8.Valid [byte '#'] := (Utf8.valid_cons (by decide)).mpr Utf8.valid_nil
  refine ⟨hash, ?_⟩
  change Utf8.Valid (c.rest.drop 2)
  match there : c.rest with
  | [] => exact absurd there left
  | [_] => exact Utf8.valid_nil
  | b :: b' :: more =>
    simp only [there, escapeAhead, Bool.and_eq_true, beq_iff_eq] at ahead
    obtain ⟨rfl, rfl⟩ := ahead
    rwa [there, Utf8.valid_cons (by decide), Utf8.valid_cons (by decide)] at valid

/-- The contents of a literal are a text as a template when they are one as plain text. They may
stand behind what has been read before. -/
theorem valid_template {bytes : List UInt8} {q : Quoted} (read : readQuoted bytes = .ok q)
    {front : List UInt8} (valid : Utf8.Valid (front ++ q.plain)) :
    Utf8.Valid (front ++ q.template) := by
  fun_induction readQuoted bytes generalizing q front with
  | case1 | case3 | case6 => cases read
  | case2 =>
    cases read
    exact valid
  | case4 _ _ ih =>
    obtain ⟨q', following, rfl⟩ := prepend_eq_ok.mp read
    have parts := (Utf8.valid_cut (by decide)).mp valid
    have template : Utf8.Valid ([] ++ q'.template) := ih following parts.2
    refine (Utf8.valid_cut (by decide)).mpr ⟨parts.1, ?_⟩
    exact (Utf8.valid_cons (by decide)).mpr template
  | case5 _ _ _ _ _ _ ih | case7 _ _ _ _ ih =>
    obtain ⟨q', following, rfl⟩ := prepend_eq_ok.mp read
    simp only [Quoted.cons, List.cons_append, List.nil_append] at valid ⊢
    rw [List.append_cons] at valid ⊢
    exact ih following valid

/-! ## Rules -/

theorem expect_ensures (b : UInt8) (why : ParseFault) (c : Cursor buffer) :
    Ensures (expect b why c) fun _ next => c.rest.head? = some b ∧ next = c.advance 1 :=
  (expect_meets b why c).ensures

theorem number_tidy (left : c.rest ≠ []) :
    Ensures (number c left) fun value _ => value.Everywhere Tidy := by
  unfold number
  dsimp only
  split
  · exact .of_ok (Node.tidy_literal _)
  · exact .of_error _

theorem wordNode_tidy (source : Source) (word : String) :
    (wordNode source word).Everywhere Tidy := by
  unfold wordNode
  split
  · exact Node.tidy_literal _
  split
  · exact Node.tidy_literal _
  · exact Node.tidy_identifier _

/-- Undoing the escapes of a literal keeps it a text. -/
theorem stringLiteral_valid (left : c.rest ≠ []) {literal : StringLiteral buffer c.remaining}
    (read : stringLiteral c left = .ok literal) : Utf8.Valid literal.template := by
  revert read
  rw [stringLiteral]
  split
  · intro read
    cases read
  rename_i quoted understood
  split
  · intro read
    cases read
  rename_i text decodes
  rintro ⟨⟩
  have plain : Utf8.Valid ([] ++ quoted.plain) := Option.isSome_iff_exists.mpr ⟨text, decodes⟩
  exact valid_template understood plain

/-- The nodes are legible, and what stands behind them is a text. -/
def Cut (values : List Node) (next : Cursor buffer) : Prop :=
  LegibleAll values ∧ Utf8.Valid next.rest

mutual

/-- Nodes that are read from a text are legible with all in them, and end where the text can be
cut. -/
theorem nodes_cut {buffer : Buffer} (text : Utf8.Valid buffer.text) (opened : Option Position)
    (c : Cursor buffer) (valid : Utf8.Valid c.rest) : Ensures (nodes opened c) Cut := by
  unfold nodes
  split
  · split
    · exact .of_error _
    · exact .of_ok ⟨Node.legibleAll_nil, valid⟩
  rename_i left
  split
  · rename_i close
    simp only [Bool.and_eq_true, beq_iff_eq] at close
    exact .of_ok ⟨Node.legibleAll_nil, Cursor.valid_advance text (by decide) close.2⟩
  · -- Only raw text relies on what is left being a text; behind all else the buffer is cut anew.
    refine (unit_cut text opened.isSome c left valid).bind ?_
    rintro ⟨node, next, below⟩ ⟨legible, goesOn⟩
    refine (nodes_cut text opened next goesOn).bind ?_
    rintro ⟨others, last, beyond⟩ ⟨rest, ended⟩
    exact .of_ok ⟨Node.legibleAll_cons.mpr ⟨legible, rest⟩, ended⟩
termination_by c.remaining * 16 + 12
decreasing_by all_goals omega

/-- A unit of a text is legible, and leaves a text. -/
theorem unit_cut {buffer : Buffer} (text : Utf8.Valid buffer.text) (inBody : Bool)
    (c : Cursor buffer) (left : c.rest ≠ []) (valid : Utf8.Valid c.rest) :
    Ensures (unit inBody c left) fun node next =>
      (node.Legible ∧ node.Everywhere Tidy) ∧ Utf8.Valid next.rest := by
  unfold unit
  split
  · rename_i ahead
    obtain ⟨legible, goesOn⟩ := escaped_legible left ahead valid
    exact .of_ok ⟨⟨legible, Node.tidy_raw _⟩, goesOn⟩
  split
  · exact tag_cut text c left
  · obtain ⟨legible, goesOn⟩ := rawText_legible inBody left valid
    exact .of_ok ⟨⟨legible, Node.tidy_raw _⟩, goesOn⟩
termination_by c.remaining * 16 + 11
decreasing_by all_goals omega

/-- A tag is legible and leaves a text. -/
theorem tag_cut {buffer : Buffer} (text : Utf8.Valid buffer.text) (c : Cursor buffer)
    (left : c.rest ≠ []) : Ensures (tag c left) fun node next =>
      (node.Legible ∧ node.Everywhere Tidy) ∧ Utf8.Valid next.rest := by
  unfold tag
  rcases pop c left with ⟨_, hash, progress⟩
  dsimp only
  split
  case isTrue print =>
    refine (oneArgument_cut text .print c.position hash).bind ?_
    rintro ⟨value, next, below⟩ ⟨tidy, goesOn⟩
    exact .of_ok ⟨⟨trivial, Node.tidy_tag _ (List.forall_mem_singleton.mpr tidy) nofun⟩, goesOn⟩
  rcases run isNameByte hash with ⟨bytes, named, after⟩
  dsimp only
  split
  case isTrue conditional =>
    refine (oneArgument_cut text .condition c.position named).bind ?_
    rintro ⟨condition, next, below⟩ ⟨tested, -⟩
    dsimp only
    refine (requiredBody_cut text .condition c.position next).bind ?_
    rintro ⟨block, next', below'⟩ ⟨legible, goesOn⟩
    dsimp only
    refine (branches_cut text next' goesOn).bind ?_
    rintro ⟨others, last, beyond⟩ ⟨branches, ended⟩
    exact .of_ok ⟨⟨trivial, Node.tidy_conditional tested legible branches⟩, ended⟩
  split
  case isTrue loops =>
    refine (loop_cut text c.position named).bind ?_
    rintro ⟨node, next, below⟩ holds
    exact .of_ok holds
  split
  case isTrue embeds =>
    refine (oneArgument_cut text .embed c.position named).bind ?_
    rintro ⟨path, next, below⟩ ⟨tidy, goesOn⟩
    exact .of_ok ⟨⟨trivial, Node.tidy_embed tidy⟩, goesOn⟩
  case isFalse =>
    refine (arguments_cut text named).bind ?_
    rintro ⟨parameters, next, below⟩ ⟨given, goesOn⟩
    dsimp only
    split
    · refine (body_cut text next).bind ?_
      rintro ⟨block, last, beyond⟩ ⟨legible, ended⟩
      refine .of_ok ⟨⟨trivial, Node.tidy_tag _ given ?_⟩, ended⟩
      rintro _ ⟨⟩
      exact legible
    · exact .of_ok ⟨⟨trivial, Node.tidy_tag _ given nofun⟩, goesOn⟩
termination_by c.remaining * 16 + 10
decreasing_by all_goals omega

/-- Further branches hold legible bodies and leave a text. -/
theorem branches_cut {buffer : Buffer} (text : Utf8.Valid buffer.text) (c : Cursor buffer)
    (valid : Utf8.Valid c.rest) : Ensures (branches c) fun others next =>
      (∀ branch ∈ others, branch.1.Everywhere Tidy ∧ LegibleAll branch.2) ∧
        Utf8.Valid next.rest := by
  unfold branches
  split
  · exact .of_ok ⟨nofun, valid⟩
  rename_i length _
  rcases skip length c with ⟨_, first, within⟩
  dsimp only
  split
  · rcases skip ifWord.length first with ⟨_, word, after⟩
    dsimp only
    rcases blanks word with ⟨_, blank, behind⟩
    dsimp only
    refine (oneArgument_cut text .elseCondition first.position blank).bind ?_
    rintro ⟨condition, next, progress⟩ ⟨tested, -⟩
    dsimp only
    refine (requiredBody_cut text .elseCondition first.position next).bind ?_
    rintro ⟨block, next', below⟩ ⟨legible, goesOn⟩
    dsimp only
    refine (branches_cut text next' goesOn).bind ?_
    rintro ⟨others, last, beyond⟩ ⟨branches, ended⟩
    exact .of_ok ⟨List.forall_mem_cons.mpr ⟨⟨tested, legible⟩, branches⟩, ended⟩
  · refine (requiredBody_cut text .otherwise first.position first).bind ?_
    rintro ⟨block, next, below⟩ ⟨legible, ended⟩
    exact .of_ok ⟨List.forall_mem_singleton.mpr ⟨Node.tidy_literal _, legible⟩, ended⟩
termination_by c.remaining * 16 + 9
decreasing_by all_goals omega

theorem loop_cut {buffer : Buffer} (text : Utf8.Valid buffer.text) (start : Position)
    (c : Cursor buffer) : Ensures (loop start c) fun node next =>
      (node.Legible ∧ node.Everywhere Tidy) ∧ Utf8.Valid next.rest := by
  unfold loop
  refine (Ensures.any _).bind ?_
  rintro ⟨_, opened, progress⟩ -
  dsimp only
  rcases blanks opened with ⟨_, first, within⟩
  dsimp only
  rcases run isNameByte first with ⟨name, last, after⟩
  dsimp only
  split
  · exact .of_error _
  rcases blanks last with ⟨_, word, behind⟩
  dsimp only
  split
  · rcases skip inWord.length word with ⟨_, source, beyond⟩
    dsimp only
    refine (expression_tidy text source).bind ?_
    rintro ⟨data, next, below⟩ ranged
    dsimp only
    rcases blanks next with ⟨_, close, blank⟩
    dsimp only
    refine (Ensures.any _).bind ?_
    rintro ⟨_, block, closing⟩ -
    dsimp only
    refine (requiredBody_cut text .loop start block).bind ?_
    rintro ⟨body, ending, ended⟩ ⟨legible, goesOn⟩
    exact .of_ok ⟨⟨trivial, Node.tidy_loop (Node.tidy_literal _) ranged legible⟩, goesOn⟩
  · exact .of_error _
termination_by c.remaining * 16 + 12
decreasing_by all_goals omega

theorem body_cut {buffer : Buffer} (text : Utf8.Valid buffer.text) (c : Cursor buffer) :
    Ensures (body c) Cut := by
  unfold body
  rcases run Text.isLineBlank c with ⟨_, first, within⟩
  dsimp only
  refine (expect_ensures _ _ first).bind ?_
  rintro ⟨_, opened, progress⟩ ⟨brace, rfl⟩
  dsimp only
  refine (nodes_cut text (some first.position) (first.advance 1)
    (Cursor.valid_advance text (by decide) brace)).bind ?_
  rintro ⟨block, next, below⟩ holds
  exact .of_ok holds
termination_by c.remaining * 16
decreasing_by all_goals omega

theorem requiredBody_cut {buffer : Buffer} (text : Utf8.Valid buffer.text)
    (construct : Construct) (start : Position) (c : Cursor buffer) :
    Ensures (requiredBody construct start c) Cut := by
  unfold requiredBody
  split
  · exact body_cut text c
  · exact .of_error _
termination_by c.remaining * 16 + 1
decreasing_by all_goals omega

theorem arguments_cut {buffer : Buffer} (text : Utf8.Valid buffer.text) (c : Cursor buffer) :
    Ensures (arguments c) fun values next =>
      (∀ value ∈ values, value.Everywhere Tidy) ∧ Utf8.Valid next.rest := by
  unfold arguments
  refine (Ensures.any _).bind ?_
  rintro ⟨_, opened, progress⟩ -
  dsimp only
  rcases blanks opened with ⟨_, first, within⟩
  dsimp only
  split
  · rename_i close
    exact .of_ok ⟨nofun, Cursor.valid_advance text (by decide) close⟩
  · refine (argumentList_cut text c.position first).bind ?_
    rintro ⟨values, next, below⟩ holds
    exact .of_ok holds
termination_by c.remaining * 16
decreasing_by all_goals omega

theorem argumentList_cut {buffer : Buffer} (text : Utf8.Valid buffer.text) (start : Position)
    (c : Cursor buffer) : Ensures (argumentList start c) fun values next =>
      (∀ value ∈ values, value.Everywhere Tidy) ∧ Utf8.Valid next.rest := by
  unfold argumentList
  refine (expression_tidy text c).bind ?_
  rintro ⟨value, next, below⟩ tidy
  dsimp only
  rcases blanks next with ⟨_, last, within⟩
  dsimp only
  generalize same : skip 1 last = skipped
  obtain ⟨_, after, behind⟩ := skipped
  have moved : after = last.advance 1 := (congrArg Reading.next same).symm
  dsimp only
  split
  · exact .of_error _
  rename_i b there
  split
  · refine (argumentList_cut text start after).bind ?_
    rintro ⟨values, ending, ended⟩ ⟨each, goesOn⟩
    exact .of_ok ⟨List.forall_mem_cons.mpr ⟨tidy, each⟩, goesOn⟩
  split
  · rename_i close
    subst close moved
    refine .of_ok ⟨List.forall_mem_singleton.mpr tidy, ?_⟩
    exact Cursor.valid_advance text (by decide) there
  · exact .of_error _
termination_by c.remaining * 16 + 11
decreasing_by all_goals omega

theorem oneArgument_cut {buffer : Buffer} (text : Utf8.Valid buffer.text) (construct : Construct)
    (start : Position) (c : Cursor buffer) : Ensures (oneArgument construct start c)
      fun value next => value.Everywhere Tidy ∧ Utf8.Valid next.rest := by
  unfold oneArgument
  refine (arguments_cut text c).bind ?_
  rintro ⟨values, next, below⟩ ⟨each, goesOn⟩
  dsimp only at each goesOn ⊢
  split
  · exact .of_ok ⟨each _ (List.mem_singleton_self _), goesOn⟩
  · exact .of_error _
termination_by c.remaining * 16 + 1
decreasing_by all_goals omega

/-- In a text every string that an expression holds is legible. -/
theorem expression_tidy {buffer : Buffer} (text : Utf8.Valid buffer.text) (c : Cursor buffer) :
    Ensures (expression c) fun value _ => value.Everywhere Tidy := by
  unfold expression
  exact binary_tidy text levels c
termination_by c.remaining * 16 + 10
decreasing_by all_goals (simp only [levels, List.length_cons, List.length_nil]; omega)

theorem binary_tidy {buffer : Buffer} (text : Utf8.Valid buffer.text) (loosest : List Level)
    (c : Cursor buffer) : Ensures (binary loosest c) fun value _ => value.Everywhere Tidy := by
  unfold binary
  split
  · exact negated_tidy text c
  rename_i level tighter
  rcases blanks c with ⟨_, first, within⟩
  dsimp only
  refine (binary_tidy text tighter first).bind ?_
  rintro ⟨left, next, below⟩ tidy
  refine (chain_tidy text level tighter first.position left next tidy).bind ?_
  rintro ⟨value, last, beyond⟩ whole
  exact .of_ok whole
termination_by c.remaining * 16 + loosest.length + 3
decreasing_by all_goals (subst loosest; simp only [List.length_cons, List.length_nil]; omega)

theorem chain_tidy {buffer : Buffer} (text : Utf8.Valid buffer.text) (level : Level)
    (tighter : List Level) (start : Position) (left : Node) (c : Cursor buffer)
    (tidy : left.Everywhere Tidy) :
    Ensures (chain level tighter start left c) fun value _ => value.Everywhere Tidy := by
  unfold chain
  rcases blanks c with ⟨_, first, within⟩
  dsimp only
  split
  · exact .of_ok tidy
  rename_i op _
  rcases skip op.token.length first with ⟨_, operand, after⟩
  dsimp only
  refine (binary_tidy text tighter operand).bind ?_
  rintro ⟨right, next, below⟩ other
  refine (chain_tidy text level tighter start _ next (Node.tidy_infixOp op tidy other)).bind ?_
  rintro ⟨value, last, beyond⟩ whole
  exact .of_ok whole
termination_by c.remaining * 16 + tighter.length + 4
decreasing_by all_goals omega

theorem negated_tidy {buffer : Buffer} (text : Utf8.Valid buffer.text) (c : Cursor buffer) :
    Ensures (negated c) fun value _ => value.Everywhere Tidy := by
  unfold negated
  rcases blanks c with ⟨_, first, within⟩
  dsimp only
  split
  · rcases pop first _ with ⟨_, inner, progress⟩
    dsimp only
    refine (negated_tidy text inner).bind ?_
    rintro ⟨operand, next, below⟩ tidy
    exact .of_ok (Node.tidy_negation tidy)
  · refine (atom_tidy text first).bind ?_
    rintro ⟨value, next, below⟩ tidy
    exact .of_ok tidy
termination_by c.remaining * 16 + 2
decreasing_by all_goals omega

theorem atom_tidy {buffer : Buffer} (text : Utf8.Valid buffer.text) (c : Cursor buffer) :
    Ensures (atom c) fun value _ => value.Everywhere Tidy := by
  unfold atom
  split
  · exact .of_error _
  rename_i left
  split
  · rcases pop c left with ⟨_, inner, progress⟩
    dsimp only
    refine (expression_tidy text inner).bind ?_
    rintro ⟨value, next, below⟩ tidy
    dsimp only
    rcases blanks next with ⟨_, last, within⟩
    dsimp only
    refine (Ensures.any _).bind ?_
    rintro ⟨_, close, closing⟩ -
    exact .of_ok tidy
  split
  · exact string_tidy c left
  split
  · exact number_tidy left
  split
  · exact word_tidy text c left
  · exact .of_error _
termination_by c.remaining * 16 + 1
decreasing_by all_goals omega

theorem word_tidy {buffer : Buffer} (text : Utf8.Valid buffer.text) (c : Cursor buffer)
    (left : c.rest ≠ []) : Ensures (word c left) fun value _ => value.Everywhere Tidy := by
  unfold word
  rcases wordBytes c left with ⟨bytes, named, progress⟩
  dsimp only
  split
  · refine (arguments_cut text named).bind ?_
    rintro ⟨parameters, next, below⟩ ⟨given, -⟩
    exact .of_ok (Node.tidy_tag _ given nofun)
  · exact .of_ok (wordNode_tidy _ _)
termination_by c.remaining * 16
decreasing_by all_goals omega

/-- A string literal is legible, with the template it is read as. -/
theorem string_tidy {buffer : Buffer} (c : Cursor buffer) (left : c.rest ≠ []) :
    Ensures (string c left) fun value _ => value.Everywhere Tidy := by
  unfold string
  cases read : stringLiteral c left with
  | error why => exact .of_error _
  | ok literal =>
    have contents := stringLiteral_valid left read
    obtain ⟨text, template, next, below⟩ := literal
    change Ensures (if _ then _ else _) _
    split
    · refine (nodes_cut contents none (Cursor.start ⟨buffer.file, template⟩) contents).bind ?_
      rintro ⟨parts, last, beyond⟩ ⟨legible, -⟩
      refine .of_ok ?_
      dsimp only
      split
      · exact Node.tidy_literal _
      · exact Node.tidy_interpolated legible
    · exact .of_ok (Node.tidy_literal _)
termination_by c.remaining * 16
decreasing_by all_goals (simp only [Cursor.remaining_start]; omega)

end

/-- A template that is a text is read as legible nodes. -/
theorem parse_legible (text : Utf8.Valid buffer.text) {values : List Node}
    (parsed : parse buffer = .ok values) : LegibleAll values := by
  obtain ⟨_, legible, -⟩ := (nodes_cut text none (Cursor.start buffer) text).of_value parsed
  exact legible

end Stencil.Grammar.Kit
