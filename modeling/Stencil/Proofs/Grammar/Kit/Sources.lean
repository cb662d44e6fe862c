import Stencil.Proofs.Grammar.Kit.Spans

/-! # Whose text a source points into

Every source of a kit template carries the label of the template, and the text of the buffer it was
closed in. That is the template itself, except inside of a string literal with template syntax of
its own: its contents are read again in a buffer that holds nothing but them, under the same label.
So a node in such a literal, and an error there, is located in the contents of the literal.
-/

namespace Stencil

/-- The source has the label and the text of the buffer. -/
structure Source.Of (buffer : Buffer) (s : Source) : Prop where
  file : s.file = buffer.file
  text : s.text = buffer.text

/-- The second buffer holds, as a template, what a string literal somewhere in the first one holds;
the label is the same. -/
def Buffer.Quotes (outer inner : Buffer) : Prop :=
  ∃ place quoted, outer.text[place]? = some (Grammar.byte '"') ∧
    Grammar.Kit.readQuoted (outer.text.drop (place + 1)) = .ok quoted ∧
    inner = ⟨outer.file, quoted.template⟩

/-- What a string holds is shorter than the text that it stands in. -/
theorem Buffer.Quotes.shorter {outer inner : Buffer} (quotes : outer.Quotes inner) :
    inner.text.length < outer.text.length := by
  obtain ⟨place, quoted, quote, read, rfl⟩ := quotes
  have within := (List.getElem?_eq_some_iff.mp quote).1
  obtain ⟨shorter, inside⟩ := Grammar.Kit.template_length_lt read
  rw [List.length_drop] at inside
  change quoted.template.length < _
  omega

theorem Buffer.Quotes.file {outer inner : Buffer} (quotes : outer.Quotes inner) :
    inner.file = outer.file := by
  obtain ⟨_, _, _, _, rfl⟩ := quotes
  rfl

namespace Grammar.Kit

variable {buffer : Buffer} {c : Cursor buffer}

/-- The node and all in it have their sources in the buffer, down to string literals that are read
as templates of their own. -/
inductive Sourced (buffer : Buffer) : Node → Prop
  | raw {source : Source} (own : source.Of buffer) (data : List UInt8) :
      Sourced buffer (.raw source data)
  | literal {source : Source} (own : source.Of buffer) (constant : Literal) :
      Sourced buffer (.literal source constant)
  | interpolated {source : Source} (own : source.Of buffer) {inner : Buffer}
      {nodes : List Node} (quotes : buffer.Quotes inner) (parsed : parse inner = .ok nodes) :
      Sourced buffer (.interpolated source nodes)
  | identifier {source : Source} (own : source.Of buffer) (path : Path) :
      Sourced buffer (.identifier source path)
  | infixOp {source : Source} (own : source.Of buffer) (op : InfixOp) {left right : Node}
      (one : Sourced buffer left) (other : Sourced buffer right) :
      Sourced buffer (.infixOp source op left right)
  | negation {source : Source} (own : source.Of buffer) {operand : Node}
      (inside : Sourced buffer operand) : Sourced buffer (.negation source operand)
  | tag {source : Source} (own : source.Of buffer) (name : String) {parameters : List Node}
      {body : Option (List Node)} (given : ∀ node ∈ parameters, Sourced buffer node)
      (block : ∀ nodes ∈ body, ∀ node ∈ nodes, Sourced buffer node) :
      Sourced buffer (.tag source name parameters body)
  | conditional {source : Source} (own : source.Of buffer) {condition : Node} {body : List Node}
      {others : List (Node × List Node)} (tested : Sourced buffer condition)
      (block : ∀ node ∈ body, Sourced buffer node)
      (testedOthers : ∀ branch ∈ others, Sourced buffer branch.1)
      (blocks : ∀ branch ∈ others, ∀ node ∈ branch.2, Sourced buffer node) :
      Sourced buffer (.conditional source condition body others)
  | loop {source : Source} (own : source.Of buffer) {key data : Node} {body : List Node}
      (named : Sourced buffer key) (ranged : Sourced buffer data)
      (block : ∀ node ∈ body, Sourced buffer node) : Sourced buffer (.loop source key data body)
  | embed {source : Source} (own : source.Of buffer) {path : Node} (inside : Sourced buffer path) :
      Sourced buffer (.embed source path)

/-- The error points into the buffer, or the contents of a string literal in it fail with it. -/
def Faulty (buffer : Buffer) (why : Error) : Prop :=
  (∃ fault source, why = .parse fault source ∧ source.Of buffer) ∨
    ∃ inner, buffer.Quotes inner ∧ parse inner = .error why

theorem of_source (c : Cursor buffer) (start : Position) : (c.source start).Of buffer := ⟨rfl, rfl⟩

theorem fault_faulty {limit : Nat} {α : Type} {Q : α → Cursor buffer → Prop} (c : Cursor buffer)
    (opened : Position) (why : ParseFault) :
    Meets (Faulty buffer) Q (fault c opened why : Except Error (Reading buffer limit α)) :=
  .inl ⟨why, _, rfl, of_source c opened⟩

/-! ## Tokens -/

theorem expect_faulty (b : UInt8) (why : ParseFault) (c : Cursor buffer) :
    Meets (Faulty buffer) (fun _ _ => True) (expect b why c) := by
  unfold expect
  split
  · exact .of_ok trivial
  · exact fault_faulty _ _ _

theorem number_sourced (left : c.rest ≠ []) :
    Meets (Faulty buffer) (fun value _ => Sourced buffer value) (number c left) := by
  unfold number
  dsimp only
  split
  · exact .of_ok (.literal (of_source _ _) _)
  · exact fault_faulty _ _ _

theorem wordNode_sourced {source : Source} (own : source.Of buffer) (word : String) :
    Sourced buffer (wordNode source word) := by
  unfold wordNode
  split
  · exact .literal own _
  split
  · exact .literal own _
  · exact .identifier own _

/-- A fault in a literal points into the buffer of the literal, or into one that it holds. -/
theorem stringLiteral_faulty (left : c.rest ≠ []) {why : Error}
    (failed : stringLiteral c left = .error why) : Faulty buffer why := by
  unfold stringLiteral at failed
  dsimp only at failed
  split at failed
  · cases failed
    exact .inl ⟨_, _, rfl, of_source _ _⟩
  · split at failed
    · cases failed
      exact .inl ⟨_, _, rfl, of_source _ _⟩
    · cases failed

/-- What a string literal holds is read again in a buffer of its own. -/
theorem string_sourced (left : c.rest ≠ []) (quote : c.rest.head? = some (byte '"')) :
    Meets (Faulty buffer) (fun value _ => Sourced buffer value) (string c left) := by
  unfold string
  cases read : stringLiteral c left with
  | error why => exact stringLiteral_faulty left read
  | ok literal =>
    obtain ⟨quoted, contents, -, same⟩ := stringLiteral_ok left read
    obtain ⟨text, template, next, below⟩ := literal
    change template = quoted.template at same
    subst same
    have quotes : buffer.Quotes ⟨buffer.file, quoted.template⟩ :=
      ⟨_, quoted, c.getElem?_offset.trans quote, contents, rfl⟩
    change Meets (Faulty buffer) _ (if _ then _ else _)
    split
    · cases inner : nodes none (Cursor.start ⟨buffer.file, quoted.template⟩) with
      | error why =>
        refine .of_error (.inr ⟨_, quotes, ?_⟩)
        rw [parse, inner]
        rfl
      | ok parts =>
        refine .of_ok ?_
        dsimp only
        split
        · exact .literal (of_source _ _) _
        · refine .interpolated (of_source _ _) quotes ?_
          rw [parse, inner]
          rfl
    · exact .of_ok (.literal (of_source _ _) _)

/-! ## Expressions -/

mutual

/-- An expression has its sources in the buffer, or in those that its strings hold. -/
theorem expression_sourced {buffer : Buffer} (c : Cursor buffer) :
    Meets (Faulty buffer) (fun value _ => Sourced buffer value) (expression c) := by
  unfold expression
  exact binary_sourced levels c
termination_by c.remaining * 16 + 10
decreasing_by all_goals (simp only [levels, List.length_cons, List.length_nil]; omega)

theorem binary_sourced {buffer : Buffer} (loosest : List Level) (c : Cursor buffer) :
    Meets (Faulty buffer) (fun value _ => Sourced buffer value) (binary loosest c) := by
  unfold binary
  split
  · exact negated_sourced c
  rename_i level tighter
  rcases blanks c with ⟨_, first, within⟩
  dsimp only
  refine (binary_sourced tighter first).bind ?_
  rintro ⟨left, next, below⟩ one
  refine (chain_sourced level tighter first.position one next).bind ?_
  rintro ⟨value, last, beyond⟩ whole
  exact .of_ok whole
termination_by c.remaining * 16 + loosest.length + 3
decreasing_by all_goals (subst loosest; simp only [List.length_cons, List.length_nil]; omega)

theorem chain_sourced {buffer : Buffer} (level : Level) (tighter : List Level) (start : Position)
    {left : Node} (one : Sourced buffer left) (c : Cursor buffer) :
    Meets (Faulty buffer) (fun value _ => Sourced buffer value)
      (chain level tighter start left c) := by
  unfold chain
  rcases blanks c with ⟨_, first, within⟩
  dsimp only
  split
  · exact .of_ok one
  rename_i op _
  rcases skip op.token.length first with ⟨_, operand, after⟩
  dsimp only
  refine (binary_sourced tighter operand).bind ?_
  rintro ⟨right, next, below⟩ other
  refine (chain_sourced level tighter start (.infixOp (of_source next start) op one other)
    next).bind ?_
  rintro ⟨value, last, beyond⟩ whole
  exact .of_ok whole
termination_by c.remaining * 16 + tighter.length + 4
decreasing_by all_goals omega

theorem negated_sourced {buffer : Buffer} (c : Cursor buffer) :
    Meets (Faulty buffer) (fun value _ => Sourced buffer value) (negated c) := by
  unfold negated
  rcases blanks c with ⟨_, first, within⟩
  dsimp only
  split
  · rcases pop first _ with ⟨_, inner, progress⟩
    dsimp only
    refine (negated_sourced inner).bind ?_
    rintro ⟨operand, next, below⟩ inside
    exact .of_ok (.negation (of_source _ _) inside)
  · refine (atom_sourced first).bind ?_
    rintro ⟨value, next, below⟩ sourced
    exact .of_ok sourced
termination_by c.remaining * 16 + 2
decreasing_by all_goals omega

theorem atom_sourced {buffer : Buffer} (c : Cursor buffer) :
    Meets (Faulty buffer) (fun value _ => Sourced buffer value) (atom c) := by
  unfold atom
  split
  · exact fault_faulty _ _ _
  rename_i left
  split
  · rcases pop c left with ⟨_, inner, progress⟩
    dsimp only
    refine (expression_sourced inner).bind ?_
    rintro ⟨value, next, below⟩ sourced
    dsimp only
    rcases blanks next with ⟨_, last, within⟩
    dsimp only
    refine (expect_faulty _ _ last).bind ?_
    rintro ⟨_, close, closing⟩ -
    exact .of_ok sourced
  split
  · rename_i quote
    exact string_sourced left quote
  split
  · exact number_sourced left
  split
  · exact word_sourced c left
  · exact fault_faulty _ _ _
termination_by c.remaining * 16 + 1
decreasing_by all_goals omega

theorem word_sourced {buffer : Buffer} (c : Cursor buffer) (left : c.rest ≠ []) :
    Meets (Faulty buffer) (fun value _ => Sourced buffer value) (word c left) := by
  unfold word
  rcases wordBytes c left with ⟨bytes, named, progress⟩
  dsimp only
  split
  · refine (arguments_sourced named).bind ?_
    rintro ⟨parameters, next, below⟩ given
    exact .of_ok (.tag (of_source _ _) _ given nofun)
  · exact .of_ok (wordNode_sourced (of_source _ _) _)
termination_by c.remaining * 16
decreasing_by all_goals omega

theorem arguments_sourced {buffer : Buffer} (c : Cursor buffer) :
    Meets (Faulty buffer) (fun values _ => ∀ value ∈ values, Sourced buffer value)
      (arguments c) := by
  unfold arguments
  refine (expect_faulty _ _ c).bind ?_
  rintro ⟨_, opened, progress⟩ -
  dsimp only
  rcases blanks opened with ⟨_, first, within⟩
  dsimp only
  split
  · exact .of_ok nofun
  · refine (argumentList_sourced c.position first).bind ?_
    rintro ⟨values, next, below⟩ each
    exact .of_ok each
termination_by c.remaining * 16
decreasing_by all_goals omega

theorem argumentList_sourced {buffer : Buffer} (start : Position) (c : Cursor buffer) :
    Meets (Faulty buffer) (fun values _ => ∀ value ∈ values, Sourced buffer value)
      (argumentList start c) := by
  unfold argumentList
  refine (expression_sourced c).bind ?_
  rintro ⟨value, next, below⟩ first
  dsimp only
  rcases blanks next with ⟨_, last, within⟩
  rcases skip 1 last with ⟨_, after, behind⟩
  dsimp only
  split
  · exact fault_faulty _ _ _
  split
  · refine (argumentList_sourced start after).bind ?_
    rintro ⟨values, end_, ended⟩ each
    exact .of_ok (List.forall_mem_cons.mpr ⟨first, each⟩)
  split
  · exact .of_ok (List.forall_mem_singleton.mpr first)
  · exact fault_faulty _ _ _
termination_by c.remaining * 16 + 11
decreasing_by all_goals omega

end

theorem oneArgument_sourced {buffer : Buffer} (construct : Construct) (start : Position)
    (c : Cursor buffer) : Meets (Faulty buffer) (fun value _ => Sourced buffer value)
      (oneArgument construct start c) := by
  unfold oneArgument
  refine (arguments_sourced c).bind ?_
  rintro ⟨values, next, below⟩ each
  dsimp only at each ⊢
  split
  · exact .of_ok (each _ (List.mem_singleton_self _))
  · exact fault_faulty _ _ _

/-! ## Nodes -/

mutual

/-- All nodes have their sources in the buffer, or in those that its strings hold. -/
theorem nodes_sourced {buffer : Buffer} (opened : Option Position) (c : Cursor buffer) :
    Meets (Faulty buffer) (fun values _ => ∀ node ∈ values, Sourced buffer node)
      (nodes opened c) := by
  unfold nodes
  split
  · cases opened with
    | none => exact .of_ok nofun
    | some start => exact fault_faulty _ _ _
  split
  · exact .of_ok nofun
  · rename_i left _
    refine (unit_sourced opened.isSome c left).bind ?_
    rintro ⟨node, next, below⟩ first
    refine (nodes_sourced opened next).bind ?_
    rintro ⟨others, last, bound⟩ each
    exact .of_ok (List.forall_mem_cons.mpr ⟨first, each⟩)
termination_by c.remaining * 16 + 12
decreasing_by all_goals omega

theorem unit_sourced {buffer : Buffer} (inBody : Bool) (c : Cursor buffer) (left : c.rest ≠ []) :
    Meets (Faulty buffer) (fun value _ => Sourced buffer value) (unit inBody c left) := by
  unfold unit
  split
  · exact .of_ok (.raw (of_source _ _) _)
  split
  · exact tag_sourced c left
  · exact .of_ok (.raw (of_source _ _) _)
termination_by c.remaining * 16 + 11
decreasing_by all_goals omega

/-- A tag has its sources in the buffer, or in those that its strings hold. -/
theorem tag_sourced {buffer : Buffer} (c : Cursor buffer) (left : c.rest ≠ []) :
    Meets (Faulty buffer) (fun value _ => Sourced buffer value) (tag c left) := by
  unfold tag
  rcases pop c left with ⟨_, hash, progress⟩
  dsimp only
  split
  case isTrue print =>
    refine (oneArgument_sourced .print c.position hash).bind ?_
    rintro ⟨value, next, below⟩ argument
    exact .of_ok (.tag (of_source _ _) "" (List.forall_mem_singleton.mpr argument) nofun)
  rcases run isNameByte hash with ⟨bytes, named, after⟩
  dsimp only
  split
  case isTrue conditional =>
    refine (oneArgument_sourced .condition c.position named).bind ?_
    rintro ⟨condition, next, below⟩ tested
    refine (requiredBody_sourced .condition c.position next).bind ?_
    rintro ⟨block, last, within⟩ filled
    refine (branches_sourced last).bind ?_
    rintro ⟨others, end_, beyond⟩ each
    exact .of_ok (.conditional (of_source _ _) tested filled (fun branch among =>
      (each branch among).1) fun branch among => (each branch among).2)
  split
  case isTrue loops =>
    refine (loop_sourced c.position named).bind ?_
    rintro ⟨node, next, below⟩ sourced
    exact .of_ok sourced
  split
  case isTrue embeds =>
    refine (oneArgument_sourced .embed c.position named).bind ?_
    rintro ⟨path, next, below⟩ argument
    exact .of_ok (.embed (of_source _ _) argument)
  case isFalse =>
    refine (arguments_sourced named).bind ?_
    rintro ⟨parameters, next, below⟩ given
    dsimp only
    split
    · refine (body_sourced next).bind ?_
      rintro ⟨block, last, within⟩ filled
      exact .of_ok (.tag (of_source _ _) _ given (by rintro _ ⟨⟩; exact filled))
    · exact .of_ok (.tag (of_source _ _) _ given nofun)
termination_by c.remaining * 16 + 10
decreasing_by all_goals omega

theorem branches_sourced {buffer : Buffer} (c : Cursor buffer) :
    Meets (Faulty buffer) (fun others _ => ∀ branch ∈ others,
      Sourced buffer branch.1 ∧ ∀ node ∈ branch.2, Sourced buffer node) (branches c) := by
  unfold branches
  split
  · exact .of_ok nofun
  rename_i length _
  rcases skip length c with ⟨_, first, within⟩
  dsimp only
  split
  · rcases skip ifWord.length first with ⟨_, word, after⟩
    rcases blanks word with ⟨_, blank, behind⟩
    dsimp only
    refine (oneArgument_sourced .elseCondition first.position blank).bind ?_
    rintro ⟨condition, next, progress⟩ tested
    refine (requiredBody_sourced .elseCondition first.position next).bind ?_
    rintro ⟨block, last, below⟩ filled
    refine (branches_sourced last).bind ?_
    rintro ⟨others, end_, beyond⟩ each
    exact .of_ok (List.forall_mem_cons.mpr ⟨⟨tested, filled⟩, each⟩)
  · refine (requiredBody_sourced .otherwise first.position first).bind ?_
    rintro ⟨block, next, below⟩ filled
    exact .of_ok (List.forall_mem_singleton.mpr ⟨.literal (of_source _ _) _, filled⟩)
termination_by c.remaining * 16 + 9
decreasing_by all_goals omega

theorem loop_sourced {buffer : Buffer} (start : Position) (c : Cursor buffer) :
    Meets (Faulty buffer) (fun value _ => Sourced buffer value) (loop start c) := by
  unfold loop
  refine (expect_faulty _ _ c).bind ?_
  rintro ⟨_, opened, progress⟩ -
  dsimp only
  rcases blanks opened with ⟨_, first, within⟩
  rcases run isNameByte first with ⟨name, last, after⟩
  dsimp only
  split
  · exact fault_faulty _ _ _
  rcases blanks last with ⟨_, word, behind⟩
  dsimp only
  split
  · rcases skip inWord.length word with ⟨_, source, beyond⟩
    dsimp only
    refine (expression_sourced source).bind ?_
    rintro ⟨data, next, below⟩ ranged
    dsimp only
    rcases blanks next with ⟨_, close, blank⟩
    dsimp only
    refine (expect_faulty _ _ close).bind ?_
    rintro ⟨_, block, closing⟩ -
    refine (requiredBody_sourced .loop start block).bind ?_
    rintro ⟨body, end_, ended⟩ filled
    exact .of_ok (.loop (of_source _ _) (.literal (of_source _ _) _) ranged filled)
  · exact fault_faulty _ _ _
termination_by c.remaining * 16 + 12
decreasing_by all_goals omega

theorem body_sourced {buffer : Buffer} (c : Cursor buffer) :
    Meets (Faulty buffer) (fun block _ => ∀ node ∈ block, Sourced buffer node) (body c) := by
  unfold body
  rcases run Text.isLineBlank c with ⟨_, first, within⟩
  dsimp only
  refine (expect_faulty _ _ first).bind ?_
  rintro ⟨_, opened, progress⟩ -
  refine (nodes_sourced (some first.position) opened).bind ?_
  rintro ⟨block, next, below⟩ each
  exact .of_ok each
termination_by c.remaining * 16
decreasing_by all_goals omega

theorem requiredBody_sourced {buffer : Buffer} (construct : Construct) (start : Position)
    (c : Cursor buffer) : Meets (Faulty buffer) (fun block _ => ∀ node ∈ block, Sourced buffer node)
      (requiredBody construct start c) := by
  unfold requiredBody
  split
  · exact body_sourced c
  · exact fault_faulty _ _ _
termination_by c.remaining * 16 + 1
decreasing_by all_goals omega

end

end Grammar.Kit

/-! ## Sources under a label -/

/-- The second node is what the first one is put together from, and the first is no string literal
that is read as a template. -/
def Node.Direct (node child : Node) : Prop :=
  node.Child child ∧ ∀ source nodes, node ≠ .interpolated source nodes

/-- The second node is the first, or stands in it at some depth, outside of all string literals that
are read as templates. -/
def Node.Outside : Node → Node → Prop := Relation.ReflTransGen Node.Direct

/-- The source is exact in the buffer, or in what a string literal there holds, perhaps inside of
others; its label is that of the buffer. -/
structure Source.Under (buffer : Buffer) (s : Source) : Prop where
  file : s.file = buffer.file
  exact : s.Exact
  held : ∃ inner, Relation.ReflTransGen Buffer.Quotes buffer inner ∧ s.text = inner.text

namespace Grammar.Kit

variable {buffer : Buffer} {top node child : Node}

namespace Sourced

/-- The source of a node itself is in the buffer. -/
theorem own (sourced : Sourced buffer node) : node.source.Of buffer := by
  cases sourced <;> assumption

theorem of_direct (sourced : Sourced buffer node) (direct : node.Direct child) :
    Sourced buffer child := by
  obtain ⟨inside, apart⟩ := direct
  cases inside with
  | interpolated => exact absurd rfl (apart _ _)
  | left =>
    cases sourced with
    | infixOp _ _ one _ => exact one
  | right =>
    cases sourced with
    | infixOp _ _ _ other => exact other
  | operand =>
    cases sourced with
    | negation _ inside => exact inside
  | parameter member =>
    cases sourced with
    | tag _ _ given _ => exact given _ member
  | body member =>
    cases sourced with
    | tag _ _ _ block => exact block _ rfl _ member
  | condition =>
    cases sourced with
    | conditional _ tested => exact tested
  | block member =>
    cases sourced with
    | conditional _ _ block => exact block _ member
  | otherCondition among =>
    cases sourced with
    | conditional _ _ _ testedOthers => exact testedOthers _ among
  | otherBlock among member =>
    cases sourced with
    | conditional _ _ _ _ blocks => exact blocks _ among _ member
  | loopKey =>
    cases sourced with
    | loop _ named => exact named
  | loopData =>
    cases sourced with
    | loop _ _ ranged => exact ranged
  | loopBody member =>
    cases sourced with
    | loop _ _ _ block => exact block _ member
  | embedPath =>
    cases sourced with
    | embed _ inside => exact inside

/-- Outside of strings all sources are in the buffer. -/
theorem of_outside (sourced : Sourced buffer top) (outside : top.Outside node) :
    Sourced buffer node := by
  induction outside with
  | refl => exact sourced
  | tail _ direct ih => exact ih.of_direct direct

end Sourced

theorem parse_sourced {nodes : List Node} (parsed : parse buffer = .ok nodes) :
    ∀ node ∈ nodes, Sourced buffer node := by
  obtain ⟨_, sourced⟩ := (nodes_sourced none (Cursor.start buffer)).of_value parsed
  exact sourced

theorem parse_faulty {why : Error} (failed : parse buffer = .error why) : Faulty buffer why :=
  (nodes_sourced none (Cursor.start buffer)).of_failure failed

/-- What stands in a node does so outside of the string literals that are read as templates, or it
has its sources in what one of them holds. -/
theorem Sourced.of_part (sourced : Sourced buffer top) (part : top.Part node) :
    top.Outside node ∨
      ∃ inner, Relation.TransGen Buffer.Quotes buffer inner ∧ Sourced inner node := by
  induction part using Relation.ReflTransGen.head_induction_on generalizing buffer with
  | refl => exact .inl .refl
  | @head top middle first _ ih =>
    by_cases literal : ∃ source nodes, top = .interpolated source nodes
    · obtain ⟨source, nodes, rfl⟩ := literal
      cases first with
      | interpolated member =>
        cases sourced with
        | interpolated _ quotes parsed =>
          have inside := parse_sourced parsed _ member
          rcases ih inside with outside | ⟨inner, deeper, inside⟩
          · exact .inr ⟨_, .single quotes, inside.of_outside outside⟩
          · exact .inr ⟨inner, .head quotes deeper, inside⟩
    · have direct : top.Direct middle :=
        ⟨first, fun source nodes same => literal ⟨source, nodes, same⟩⟩
      rcases ih (sourced.of_direct direct) with outside | inside
      · exact .inl (.head direct outside)
      · exact .inr inside

end Grammar.Kit

theorem Buffer.Quotes.file_of_trans {outer inner : Buffer}
    (quotes : Relation.TransGen Quotes outer inner) : inner.file = outer.file := by
  induction quotes with
  | single only => exact only.file
  | tail _ last ih => exact last.file.trans ih

/-- However deep a string stands in others, its text is shorter. -/
theorem Buffer.Quotes.shorter_of_trans {outer inner : Buffer}
    (quotes : Relation.TransGen Quotes outer inner) : inner.text.length < outer.text.length := by
  induction quotes with
  | single only => exact only.shorter
  | tail _ last ih => exact Nat.lt_trans last.shorter ih

namespace Source.Under

variable {buffer inner : Buffer} {s : Source}

theorem of_own (own : s.Of buffer) (exact : s.Exact) : s.Under buffer :=
  ⟨own.file, exact, buffer, .refl, own.text⟩

theorem of_quotes (quotes : buffer.Quotes inner) (under : s.Under inner) : s.Under buffer := by
  obtain ⟨deeper, nested, text⟩ := under.held
  exact ⟨under.file.trans quotes.file, under.exact, deeper, .head quotes nested, text⟩

/-- No text behind a source is longer than the template. -/
theorem length_le (under : s.Under buffer) : s.text.length ≤ buffer.text.length := by
  obtain ⟨deeper, nested, text⟩ := under.held
  rw [text]
  rcases nested.cases_head with rfl | ⟨first, quotes, rest⟩
  · exact Nat.le_refl _
  · exact Nat.le_of_lt (Buffer.Quotes.shorter_of_trans (.head' quotes rest))

/-- What points into a string literal does not point into the buffer around it. -/
theorem text_ne (quotes : buffer.Quotes inner) (under : s.Under inner) :
    s.text ≠ buffer.text := by
  intro same
  have within := under.length_le
  have shorter := quotes.shorter
  rw [same] at within
  omega

end Source.Under

namespace Grammar.Kit

variable {buffer : Buffer}

/-- An error points into the buffer when no string literal in it fails with it, and otherwise into
what a literal holds. -/
theorem error_under {buffer : Buffer} {why : Error} (failed : parse buffer = .error why) :
    ∃ fault source, why = .parse fault source ∧ source.Under buffer ∧
      (source.text = buffer.text ↔
        ∀ inner, buffer.Quotes inner → parse inner ≠ .error why) := by
  rcases parse_faulty failed with ⟨fault, source, rfl, own⟩ | ⟨inner, quotes, fails⟩
  · obtain ⟨_, _, same, exact⟩ := parse_placed failed
    cases same
    refine ⟨fault, source, rfl, .of_own own exact, fun text inner quotes fails => ?_,
      fun _ => own.text⟩
    have := quotes.shorter
    obtain ⟨_, _, same, under, -⟩ := error_under fails
    cases same
    exact under.text_ne quotes text
  · have := quotes.shorter
    obtain ⟨fault, source, rfl, under, -⟩ := error_under fails
    exact ⟨fault, source, rfl, .of_quotes quotes under,
      fun text => absurd text (under.text_ne quotes), fun none => absurd fails (none inner quotes)⟩
termination_by buffer.text.length

/-- A node points into the buffer when it stands outside of the string literals that are read as
templates, and otherwise into what a literal holds. -/
theorem node_under {nodes : List Node} (parsed : parse buffer = .ok nodes) {top node : Node}
    (member : top ∈ nodes) (part : top.Part node) :
    node.source.Under buffer ∧ (node.source.text = buffer.text ↔ top.Outside node) := by
  have exact := (((parse_laid parsed).2 top member).located node part).exact
  have sourced := parse_sourced parsed top member
  rcases sourced.of_part part with outside | ⟨inner, quotes, inside⟩
  · have own := (sourced.of_outside outside).own
    exact ⟨.of_own own exact, fun _ => outside, fun _ => own.text⟩
  · refine ⟨⟨?_, exact, inner, quotes.to_reflTransGen, inside.own.text⟩, fun text => ?_,
      fun outside => (sourced.of_outside outside).own.text⟩
    · exact inside.own.file.trans (Buffer.Quotes.file_of_trans quotes)
    · have shorter := Buffer.Quotes.shorter_of_trans quotes
      rw [← inside.own.text, text] at shorter
      exact absurd shorter (Nat.lt_irrefl _)

/-- All sources that come of a template carry its label and are exact, in the template or in a
string literal. A node points into the template itself when it stands outside of the literals that
are read as templates, and an error does when no literal fails with it. -/
theorem parse_under (buffer : Buffer) :
    (∀ nodes, parse buffer = .ok nodes → ∀ top ∈ nodes, ∀ node, top.Part node →
      node.source.Under buffer ∧ (node.source.text = buffer.text ↔ top.Outside node)) ∧
    ∀ why, parse buffer = .error why → ∃ fault source, why = .parse fault source ∧
      source.Under buffer ∧ (source.text = buffer.text ↔
        ∀ inner, buffer.Quotes inner → parse inner ≠ .error why) :=
  ⟨fun _ parsed _ member _ => node_under parsed member, fun _ => error_under⟩

/-- A string with a tag of its own, in the second line. -/
private def secondLine : Buffer := ⟨"t", "\n#(\"x#(y)\")".toList.map byte⟩

private def heldSource (start stop : Nat) : Source :=
  ⟨"t", 0, start, start, stop, "x#(y)".toList.map byte⟩

private def heldTag : Node :=
  .tag (heldSource 1 5) "" [.identifier (heldSource 3 4) ⟨[.key "y"]⟩] none

private def secondLineTag : Node :=
  .tag ⟨"t", 1, 0, 1, 11, secondLine.text⟩ ""
    [.interpolated ⟨"t", 1, 2, 3, 10, secondLine.text⟩ [.raw (heldSource 0 1) [byte 'x'], heldTag]]
    none

private theorem parse_secondLine :
    parse secondLine = .ok [.raw ⟨"t", 0, 0, 0, 1, secondLine.text⟩ [byte '\n'], secondLineTag] := by
  cbv

private theorem heldTag_part : secondLineTag.Part heldTag :=
  .head (.parameter (List.mem_singleton_self _))
    (.single (.interpolated (List.mem_cons_of_mem _ (List.mem_singleton_self _))))

/-- The tag in the string is located in what the string holds. -/
theorem parse_under_secondLine :
    heldTag.source.Under secondLine ∧ heldTag.source.text = "x#(y)".toList.map byte :=
  ⟨((parse_under secondLine).1 _ parse_secondLine secondLineTag
    (List.mem_cons_of_mem _ (List.mem_singleton_self _)) heldTag heldTag_part).1, rfl⟩

/-- Not every source that carries the label of a template points into it. -/
theorem not_parse_under : ¬ ∀ buffer : Buffer,
    (∀ nodes, parse buffer = .ok nodes → ∀ top ∈ nodes, ∀ node, top.Part node →
      node.source.file = buffer.file → node.source.text = buffer.text ∧ node.source.Exact) ∧
    ∀ fault source, parse buffer = .error (.parse fault source) → source.file = buffer.file →
      source.text = buffer.text ∧ source.Exact := by
  intro always
  have own := (always secondLine).1 _ parse_secondLine secondLineTag
    (List.mem_cons_of_mem _ (List.mem_singleton_self _)) heldTag heldTag_part rfl
  exact absurd own.1 (by decide)

end Grammar.Kit

end Stencil
