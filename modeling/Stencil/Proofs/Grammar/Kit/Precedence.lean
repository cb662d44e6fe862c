import Stencil.Proofs.Grammar.Kit.Literals
import Stencil.Proofs.Grammar.Kit.Rules

/-! # Reading expressions

A written expression is read as the expression, whatever its blanks and extra parentheses are. The
induction is on how it is written. The operands of one level are read by a loop that holds what it
has joined so far, so a left operand is not read as a whole: the loop goes on with it, and this is
what `Continues` says. Everything else is read to its end, and `ReadsWhole` says so.
-/

namespace Stencil

namespace InfixOp

theorem mem_all (op : InfixOp) : op ∈ all := by cases op <;> decide

theorem precedence_lt (op : InfixOp) : op.precedence < Grammar.Kit.levels.length := by
  cases op <;> decide

/-- The first byte of an operator tells its level. -/
theorem precedence_of_head {op op' : InfixOp} (same : op.token.head? = op'.token.head?) :
    op.precedence = op'.precedence := by
  have table : ∀ a ∈ all, ∀ b ∈ all, a.token.head? = b.token.head? → a.precedence = b.precedence := by
    decide
  exact table op op.mem_all op' op'.mem_all same

end InfixOp

namespace Grammar.Kit

variable {buffer : Buffer}

/-! ## Operators -/

/-- The levels of the grammar hold the operators of each precedence. -/
theorem mem_level {p : Nat} (bound : p < levels.length) {op : InfixOp} :
    op ∈ levels[p] ↔ op.precedence = p := by
  have table : ∀ q (h : q < levels.length), ∀ a ∈ InfixOp.all, a ∈ levels[q] ↔ a.precedence = q := by
    decide
  exact table p bound op op.mem_all

/-- After blanks there is no operator that binds at least at the precedence. -/
def NoOperator (p : Nat) (rest : List UInt8) : Prop :=
  ∀ op : InfixOp, p ≤ op.precedence → op.token.isPrefixOf (afterBlanks rest) = false

/-- Without an operator of the level behind blanks none is found. -/
theorem operatorAhead?_eq_none {p : Nat} (bound : p < levels.length) {rest : List UInt8}
    (without : NoOperator p rest) : operatorAhead? levels[p] (afterBlanks rest) = none := by
  rw [operatorAhead?, List.find?_eq_none]
  intro op member
  rw [without op (Nat.le_of_eq ((mem_level bound).mp member).symm)]
  exact Bool.false_ne_true

/-- An operator is read as itself where no other sign of equality follows it. -/
theorem operatorAhead?_token (op : InfixOp) {rest : List UInt8}
    (follows : rest.head? ≠ some (byte '=')) :
    operatorAhead? (levels.get ⟨_, op.precedence_lt⟩) (op.token ++ rest) = some op := by
  have single : [byte '='].isPrefixOf rest = false := by
    cases rest with
    | nil => rfl
    | cons b rest =>
      have other : b ≠ byte '=' := by simpa using follows
      rw [List.isPrefixOf_cons_cons, beq_eq_false_iff_ne.mpr other.symm, Bool.false_and]
  cases op with
  | less =>
    have longer : InfixOp.lessOrEqual.token.isPrefixOf (InfixOp.less.token ++ rest) = false := single
    exact (List.find?_cons_of_neg (by rw [longer]; exact Bool.false_ne_true)).trans rfl
  | greater =>
    have longer : InfixOp.greaterOrEqual.token.isPrefixOf (InfixOp.greater.token ++ rest) = false :=
      single
    have other : InfixOp.lessOrEqual.token.isPrefixOf (InfixOp.greater.token ++ rest) = false := rfl
    refine (List.find?_cons_of_neg (by rw [other]; exact Bool.false_ne_true)).trans ?_
    exact (List.find?_cons_of_neg (by rw [longer]; exact Bool.false_ne_true)).trans rfl
  | _ => rfl

theorem isAsciiBlank_token {op : InfixOp} {b : UInt8} {more : List UInt8}
    (parts : op.token = b :: more) : Text.isAsciiBlank b = false := by
  have table : ∀ a ∈ InfixOp.all, ∀ x ∈ a.token, Text.isAsciiBlank x = false := by decide
  exact table op op.mem_all b (by simp [parts])

/-- Behind an operand, an operator of one level leaves none of the tighter ones. -/
theorem noOperator_token {op : InfixOp} {before rest : List UInt8} (blank : Blank before) :
    NoOperator (op.precedence + 1) (before ++ op.token ++ rest) := by
  intro op' tighter
  obtain ⟨b, more, parts⟩ := List.exists_cons_of_ne_nil op.token_ne_nil
  obtain ⟨b', more', parts'⟩ := List.exists_cons_of_ne_nil op'.token_ne_nil
  rw [List.append_assoc, afterBlanks_append blank, parts, List.cons_append,
    afterBlanks_cons _ (isAsciiBlank_token parts), parts', List.isPrefixOf_cons_cons]
  have other : (b' == b) = false := by
    cases same : b' == b with
    | false => rfl
    | true =>
      have heads : op'.token.head? = op.token.head? := by
        rw [parts, parts', List.head?_cons, List.head?_cons, eq_of_beq same]
      have level := InfixOp.precedence_of_head heads
      omega
  rw [other, Bool.false_and]

theorem NoOperator.mono {p q : Nat} {rest : List UInt8} (without : NoOperator p rest)
    (le : p ≤ q) : NoOperator q rest := fun op tighter => without op (Nat.le_trans le tighter)

/-! ## How expressions begin -/

/-- A byte that begins an expression binding at the precedence. -/
def Opens (p : Nat) (b : UInt8) : Prop :=
  opensWord b = true ∨ isDigit b = true ∨ b ∈ [byte '(', byte '"', byte '-'] ∨ p ≤ 6 ∧ b = byte '!'

theorem Opens.dark {p : Nat} {b : UInt8} (opens : Opens p b) :
    Text.isAsciiBlank b = false ∧ b ≠ byte ')' ∧ b ≠ byte '=' := by
  have table : ∀ x ∈ [0x20, 0x09, 0x0A, 0x0C, 0x0D, byte ')', byte '='], opensWord x = false ∧
      isDigit x = false ∧ x ∉ [byte '(', byte '"', byte '-'] ∧ x ≠ byte '!' := by decide
  have apart : b ∉ [0x20, 0x09, 0x0A, 0x0C, 0x0D, byte ')', byte '='] := by
    intro member
    obtain ⟨word, digit, atom, bang⟩ := table b member
    rcases opens with opens | opens | opens | ⟨-, opens⟩
    · exact absurd opens (by simp [word])
    · exact absurd opens (by simp [digit])
    · exact atom opens
    · exact bang opens
  simp only [List.mem_cons, List.not_mem_nil, or_false, not_or] at apart
  obtain ⟨space, tab, line, form, carriage, closing, equality⟩ := apart
  refine ⟨?_, closing, equality⟩
  simp [Text.isAsciiBlank, space, tab, line, form, carriage]

/-- Only a negation begins with the sign of one. -/
theorem Opens.ne_bang {b : UInt8} (opens : Opens 7 b) : b ≠ byte '!' := by
  rintro rfl
  rcases opens with opens | opens | opens | ⟨le, -⟩
  · exact absurd opens (by decide)
  · exact absurd opens (by decide)
  · exact absurd opens (by decide)
  · exact absurd le (by decide)

def Begins (p : Nat) (text : List UInt8) : Prop := ∃ b more, text = b :: more ∧ Opens p b

namespace Begins

variable {p : Nat} {text : List UInt8}

theorem mono {q : Nat} (le : p ≤ q) (begins : Begins q text) : Begins p text := by
  obtain ⟨b, more, same, opens⟩ := begins
  exact ⟨b, more, same, opens.imp_right (.imp_right (.imp_right (.imp_left (Nat.le_trans le))))⟩

theorem append (begins : Begins p text) (rest : List UInt8) : Begins p (text ++ rest) := by
  obtain ⟨b, more, rfl, opens⟩ := begins
  exact ⟨b, more ++ rest, rfl, opens⟩

theorem ne_nil (begins : Begins p text) : text ≠ [] := by
  obtain ⟨b, more, rfl, -⟩ := begins
  exact List.cons_ne_nil _ _

theorem afterBlanks (begins : Begins p text) : afterBlanks text = text := by
  obtain ⟨b, more, rfl, opens⟩ := begins
  exact afterBlanks_cons _ opens.dark.1

theorem head_ne_close (begins : Begins p text) : text.head? ≠ some (byte ')') := by
  obtain ⟨b, more, rfl, opens⟩ := begins
  simpa using opens.dark.2.1

end Begins

/-! ## What may follow -/

/-- What holds of blanks and of the first byte after them holds of the first byte. -/
theorem head_of_blank {P : UInt8 → Prop} {gap rest : List UInt8} (blank : Blank gap)
    (blanks : ∀ b, Text.isAsciiBlank b = true → P b) (behind : ∀ b ∈ rest.head?, P b) :
    ∀ b ∈ (gap ++ rest).head?, P b := by
  cases gap with
  | nil => exact behind
  | cons b gap =>
    rintro _ ⟨⟩
    exact blanks b (blank b List.mem_cons_self)

/-- A condition on blanks is one on five bytes. -/
theorem apart_of_isAsciiBlank {p : UInt8 → Bool}
    (table : ∀ x ∈ [0x20, 0x09, 0x0A, 0x0C, 0x0D], p x = true) {b : UInt8}
    (blank : Text.isAsciiBlank b = true) : p b = true := by
  apply table
  simpa [Text.isAsciiBlank, or_assoc] using blank

theorem ends_of_blank {gap rest : List UInt8} (blank : Blank gap) (ends : Ends rest) :
    Ends (gap ++ rest) := by
  refine head_of_blank blank (fun b blank => ?_) ends
  have apart := apart_of_isAsciiBlank (p := fun b => !isWordByte b && b != byte '(') (by decide) blank
  simpa using apart

theorem ends_token (op : InfixOp) (rest : List UInt8) : Ends (op.token ++ rest) := by
  have table : ∀ a ∈ InfixOp.all, ∀ b ∈ a.token, isWordByte b = false ∧ b ≠ byte '(' := by decide
  obtain ⟨b, more, parts⟩ := List.exists_cons_of_ne_nil op.token_ne_nil
  rw [parts]
  rintro _ ⟨⟩
  exact table op op.mem_all b (parts ▸ List.mem_cons_self)

/-- No sign of equality stands before an expression. -/
theorem Begins.head_ne_equality {p : Nat} {text gap : List UInt8} (begins : Begins p text)
    (blank : Blank gap) : ∀ b ∈ (gap ++ text).head?, b ≠ byte '=' := by
  refine head_of_blank blank (fun b blank => ?_) ?_
  · simpa using apart_of_isAsciiBlank (p := fun b => b != byte '=') (by decide) blank
  · obtain ⟨b, more, rfl, opens⟩ := begins
    rintro _ ⟨⟩
    exact opens.dark.2.2

/-- After blanks stands a byte that closes an expression. -/
theorem closes {gap : List UInt8} (blank : Blank gap) {b : UInt8}
    (closing : b = byte ')' ∨ b = byte ',') (rest : List UInt8) :
    Ends (gap ++ b :: rest) ∧ NoOperator 0 (gap ++ b :: rest) ∧
      afterBlanks (gap ++ b :: rest) = b :: rest := by
  have table : ∀ x ∈ [byte ')', byte ','], Text.isAsciiBlank x = false ∧ isWordByte x = false ∧
      x ≠ byte '(' ∧ ∀ op ∈ InfixOp.all, op.token.head? ≠ some x := by decide
  obtain ⟨dark, inside, opening, operators⟩ := table b (by simpa using closing)
  have after : afterBlanks (gap ++ b :: rest) = b :: rest := by
    rw [afterBlanks_append blank, afterBlanks_cons _ dark]
  refine ⟨ends_of_blank blank ?_, fun op _ => ?_, after⟩
  · rintro _ ⟨⟩
    exact ⟨inside, opening⟩
  · obtain ⟨b', more, parts⟩ := List.exists_cons_of_ne_nil op.token_ne_nil
    have other : b' ≠ b := by simpa [parts] using operators op op.mem_all
    rw [after, parts, List.isPrefixOf_cons_cons, beq_eq_false_iff_ne.mpr other, Bool.false_and]

/-! ## Whole expressions -/

variable {p : Nat} {P : Node → Prop} {text : List UInt8}

/-- The text is read to its end as an expression with the property, where nothing goes on with
it. -/
def ReadsWhole (p : Nat) (P : Node → Prop) (text : List UInt8) : Prop :=
  ∀ (buffer : Buffer) (c : Cursor buffer) (rest : List UInt8),
    afterBlanks c.rest = text ++ rest → Ends rest → NoOperator p rest →
      Reads (binary (levels.drop p) c) fun value next =>
        P value ∧ afterBlanks next.rest = afterBlanks rest

/-- The text is read as a left operand of its level, and the loop over the level goes on with it. -/
def Continues (p : Nat) (P : Node → Prop) (text : List UInt8) : Prop :=
  ∀ (bound : p < levels.length) (buffer : Buffer) (c : Cursor buffer) (rest : List UInt8)
    (Q : Node → Cursor buffer → Prop),
    afterBlanks c.rest = text ++ rest → Ends rest → NoOperator (p + 1) rest →
      (∀ start value next, P value → afterBlanks next.rest = afterBlanks rest →
        Reads (chain levels[p] (levels.drop (p + 1)) start value next) Q) →
      Reads (binary (levels.drop p) c) Q

/-- What goes on as a left operand is read whole where nothing goes on with it. -/
theorem Continues.readsWhole (bound : p < levels.length) (continues : Continues p P text) :
    ReadsWhole p P text := by
  intro buffer c rest there ends without
  refine continues bound buffer c rest _ there ends (without.mono p.le_succ) ?_
  intro start value next same after
  have none := operatorAhead?_eq_none bound without
  rw [← after] at none
  refine (reads_chain_end none).imp ?_
  rintro _ last ⟨rfl, rests⟩
  exact ⟨same, by rw [rests, afterBlanks_idem, after]⟩

/-- What is read whole at the level above is a left operand of this one. -/
theorem ReadsWhole.continues (whole : ReadsWhole (p + 1) P text) : Continues p P text := by
  intro bound buffer c rest Q there ends without goesOn
  rw [List.drop_eq_getElem_cons bound]
  have first : afterBlanks c.skipBlanks.rest = text ++ rest := by
    rw [Cursor.rest_skipBlanks, afterBlanks_idem, there]
  exact reads_binary_cons (whole buffer _ rest first ends without) fun start value next holds =>
    goesOn start value next holds.1 holds.2

/-- The text begins like an expression, and is read as one with the property in both ways. -/
structure Readable (p : Nat) (P : Node → Prop) (text : List UInt8) : Prop where
  begins : Begins p text
  whole : ReadsWhole p P text
  continues : Continues p P text

namespace Readable

/-- What is read without a look at operators is read at the tightest precedence. -/
theorem of_negated (tight : levels.length ≤ p) (begins : Begins p text)
    (read : ∀ (buffer : Buffer) (c : Cursor buffer) (rest : List UInt8),
      afterBlanks c.rest = text ++ rest → Ends rest → NoOperator p rest →
        Reads (negated c) fun value next =>
          P value ∧ afterBlanks next.rest = afterBlanks rest) :
    Readable p P text := by
  refine ⟨begins, ?_, ?_⟩
  · intro buffer c rest there ends without
    rw [List.drop_eq_nil_of_le tight, binary_nil]
    exact read buffer c rest there ends without
  · intro bound
    exact absurd bound (Nat.not_lt.mpr tight)

/-- An atom is read where no negation stands. -/
theorem of_atom (begins : Begins 7 text)
    (read : ∀ (buffer : Buffer) (c : Cursor buffer) (rest : List UInt8),
      c.rest = text ++ rest → Ends rest → Reads (atom c) fun value next =>
        P value ∧ next.rest = rest) :
    Readable 7 P text := by
  refine .of_negated (by decide) begins fun buffer c rest there ends _ => ?_
  have ahead : negationAhead (afterBlanks c.rest) = false := by
    obtain ⟨b, more, rfl, opens⟩ := begins
    rw [there, negationAhead, List.cons_append, List.head?_cons, Option.some_beq_some,
      beq_eq_false_iff_ne.mpr opens.ne_bang, Bool.false_and]
  refine reads_negated_atom ahead ((read buffer _ rest ?_ ends).imp ?_)
  · rw [Cursor.rest_skipBlanks, there]
  · rintro value next ⟨same, rfl⟩
    exact ⟨same, rfl⟩

/-- What is readable at a level is so at every looser one. -/
theorem looser (tighter : Readable (p + 1) P text) : Readable p P text := by
  have continues := tighter.whole.continues
  refine ⟨tighter.begins.mono p.le_succ, ?_, continues⟩
  by_cases bound : p < levels.length
  · exact continues.readsWhole bound
  · intro buffer c rest there ends without
    have same : levels.drop p = levels.drop (p + 1) := by
      rw [List.drop_eq_nil_of_le (by omega), List.drop_eq_nil_of_le (by omega)]
    rw [same]
    exact tighter.whole buffer c rest there ends (without.mono p.le_succ)

/-- What binds at a precedence is read where a looser one is asked for. -/
theorem loosen {q : Nat} (le : p ≤ q) (readable : Readable q P text) : Readable p P text := by
  induction le with
  | refl => exact readable
  | step _ ih => exact ih readable.looser

/-! ## Operators -/

/-- An operator and its right operand behind a left one. -/
theorem infixOp {op : InfixOp} {left right : Expr} {first before after second : List UInt8}
    (leftOperand : Readable op.precedence left.Matches first) (blankBefore : Blank before)
    (blankAfter : Blank after)
    (rightOperand : Readable (op.precedence + 1) right.Matches second) :
    Readable op.precedence (Expr.infixOp op left right).Matches
      (first ++ before ++ op.token ++ after ++ second) := by
  have begins : Begins op.precedence (first ++ before ++ op.token ++ after ++ second) := by
    simpa only [List.append_assoc] using leftOperand.begins.append _
  suffices continues : Continues op.precedence (Expr.infixOp op left right).Matches
      (first ++ before ++ op.token ++ after ++ second) from
    ⟨begins, continues.readsWhole op.precedence_lt, continues⟩
  intro bound buffer c rest Q there ends without goesOn
  have whole : afterBlanks c.rest =
      first ++ (before ++ (op.token ++ (after ++ (second ++ rest)))) := by
    simpa only [List.append_assoc] using there
  refine leftOperand.continues bound buffer c _ Q whole
    (ends_of_blank blankBefore (ends_token op _)) (List.append_assoc .. ▸ noOperator_token blankBefore)
    fun start value next same behind => ?_
  obtain ⟨b, more, parts⟩ := List.exists_cons_of_ne_nil op.token_ne_nil
  have sign : afterBlanks next.rest = op.token ++ (after ++ (second ++ rest)) := by
    rw [behind, afterBlanks_append blankBefore, parts]
    exact afterBlanks_cons _ (isAsciiBlank_token parts)
  have ahead : operatorAhead? levels[op.precedence] (afterBlanks next.rest) = some op := by
    rw [sign]
    exact operatorAhead?_token op fun first =>
      (rightOperand.begins.append rest).head_ne_equality blankAfter _ first rfl
  have operand : afterBlanks (next.skipBlanks.advance op.token.length).rest = second ++ rest := by
    rw [Cursor.rest_advance, Cursor.rest_skipBlanks, sign, List.drop_left,
      afterBlanks_append blankAfter, (rightOperand.begins.append rest).afterBlanks]
  refine reads_chain_step ahead (rightOperand.whole buffer _ rest operand ends without) ?_
  rintro source value' next' ⟨same', behind'⟩
  exact goesOn start _ next' (Expr.matches_infixOp same same') behind'

theorem negation {e : Expr} {gap : List UInt8} (blank : Blank gap)
    (operand : Readable 6 e.Matches text) :
    Readable 6 (Expr.negation e).Matches (byte '!' :: gap ++ text) := by
  have begins : Begins 6 (byte '!' :: gap ++ text) :=
    ⟨_, _, rfl, .inr (.inr (.inr ⟨Nat.le_refl 6, rfl⟩))⟩
  refine .of_negated (by decide) begins fun buffer c rest there ends without => ?_
  rw [List.cons_append, List.cons_append, List.append_assoc] at there
  have ahead : negationAhead (afterBlanks c.rest) = true := by
    have unequal : (gap ++ (text ++ rest))[0]? ≠ some (byte '=') := by
      rw [← List.head?_eq_getElem?]
      exact fun first => (operand.begins.append rest).head_ne_equality blank _ first rfl
    rw [there, negationAhead, List.head?_cons, List.getElem?_cons_succ]
    simpa using unequal
  have inner : afterBlanks (c.skipBlanks.advance 1).rest = text ++ rest := by
    rw [Cursor.rest_advance, Cursor.rest_skipBlanks, there, List.drop_one, List.tail_cons,
      afterBlanks_append blank, (operand.begins.append rest).afterBlanks]
  have read := operand.whole buffer _ rest inner ends without
  rw [List.drop_eq_nil_of_le (by decide), binary_nil] at read
  exact reads_negation ahead read fun source value next holds =>
    ⟨Expr.matches_negation holds.1, holds.2⟩

/-! ## Expressions between tokens -/

variable {before after : List UInt8}

/-- An expression with blanks around it, before a byte that closes it. -/
theorem expression (blankBefore : Blank before) (readable : Readable 0 P text)
    (blankAfter : Blank after) {c : Cursor buffer} {b : UInt8} {rest : List UInt8}
    (closing : b = byte ')' ∨ b = byte ',')
    (there : afterBlanks c.rest = afterBlanks (before ++ text ++ after ++ b :: rest)) :
    Reads (expression c) fun value next => P value ∧ afterBlanks next.rest = b :: rest := by
  obtain ⟨ends, without, close⟩ := closes blankAfter closing rest
  have first : afterBlanks c.rest = text ++ (after ++ b :: rest) := by
    rw [there, List.append_assoc, List.append_assoc, afterBlanks_append blankBefore,
      (readable.begins.append _).afterBlanks]
  rw [Kit.expression]
  exact (readable.whole buffer c _ first ends without).imp fun value next holds =>
    ⟨holds.1, holds.2.trans close⟩

/-- In parentheses an expression is readable wherever an operand is. -/
theorem group (blankBefore : Blank before) (readable : Readable 0 P text)
    (blankAfter : Blank after) :
    Readable 7 P (byte '(' :: before ++ text ++ after ++ [byte ')']) := by
  have begins : Begins 7 (byte '(' :: before ++ text ++ after ++ [byte ')']) :=
    ⟨_, _, rfl, .inr (.inr (.inl (by simp)))⟩
  refine .of_atom begins fun buffer c rest there ends => ?_
  have opened : c.rest.head? = some (byte '(') := by rw [there]; rfl
  have inner : (c.advance 1).rest = before ++ text ++ after ++ byte ')' :: rest := by
    rw [Cursor.rest_advance, there]
    simp
  have read := readable.expression (c := c.advance 1) blankBefore blankAfter (.inl rfl)
    (congrArg afterBlanks inner)
  refine (reads_group opened read fun value next holds => holds.2).imp ?_
  rintro value next ⟨⟨last, same, -⟩, rests⟩
  exact ⟨same, rests⟩

end Readable

end Grammar.Kit

end Stencil
