import Stencil.Proofs.Grammar.Kit.Tokens

/-! # The rules of kit expressions

One lemma for each rule and each way it can go on. A lemma asks for what the rule looks at and for
what its parts read, and says what the rule reads from them.
-/

namespace Stencil.Grammar.Kit

variable {buffer : Buffer}

/-! ## Operators and operands -/

theorem binary_nil (c : Cursor buffer) : binary [] c = negated c := by rw [binary]

/-- A level is read as an operand of the tighter levels, and then the loop over its operators. -/
theorem reads_binary_cons {c : Cursor buffer} {level : Level} {tighter : List Level}
    {P Q : Node → Cursor buffer → Prop} (operand : Reads (binary tighter c.skipBlanks) P)
    (goesOn : ∀ start value next, P value next → Reads (chain level tighter start value next) Q) :
    Reads (binary (level :: tighter) c) Q := by
  rw [binary]
  refine operand.bind ?_
  rintro ⟨value, next, below⟩ holds
  exact (goesOn _ value next holds).bind fun _ last => .of_ok last

/-- The loop over a level stops where no operator of it is ahead. -/
theorem reads_chain_end {c : Cursor buffer} {level : Level} {tighter : List Level}
    {start : Position} {left : Node} (none : operatorAhead? level (afterBlanks c.rest) = none) :
    Reads (chain level tighter start left c) fun value next =>
      value = left ∧ next.rest = afterBlanks c.rest := by
  rw [← Cursor.rest_skipBlanks] at none
  rw [chain]
  simp only [blanks, none]
  exact .of_ok ⟨rfl, c.rest_skipBlanks⟩

/-- The loop over a level takes an operator with the operand behind it, and goes on. -/
theorem reads_chain_step {c : Cursor buffer} {level : Level} {tighter : List Level}
    {start : Position} {left : Node} {op : InfixOp} {P Q : Node → Cursor buffer → Prop}
    (ahead : operatorAhead? level (afterBlanks c.rest) = some op)
    (operand : Reads (binary tighter (c.skipBlanks.advance op.token.length)) P)
    (goesOn : ∀ source right next, P right next →
      Reads (chain level tighter start (.infixOp source op left right) next) Q) :
    Reads (chain level tighter start left c) Q := by
  rw [← Cursor.rest_skipBlanks] at ahead
  rw [chain]
  simp only [blanks, ahead]
  refine operand.bind fun ⟨right, next, below⟩ holds => ?_
  exact (goesOn _ right next holds).bind fun _ last => .of_ok last

theorem reads_negation {c : Cursor buffer} {P Q : Node → Cursor buffer → Prop}
    (ahead : negationAhead (afterBlanks c.rest) = true)
    (operand : Reads (negated (c.skipBlanks.advance 1)) P)
    (result : ∀ source value next, P value next → Q (.negation source value) next) :
    Reads (negated c) Q := by
  rw [← Cursor.rest_skipBlanks] at ahead
  rw [negated]
  rcases parts : blanks c with ⟨_, first, within⟩
  obtain rfl : c.skipBlanks = first := congrArg Reading.next parts
  dsimp only
  rw [dif_pos ahead]
  exact operand.bind fun ⟨value, next, below⟩ holds => .of_ok (result _ value next holds)

theorem reads_negated_atom {c : Cursor buffer} {Q : Node → Cursor buffer → Prop}
    (ahead : negationAhead (afterBlanks c.rest) = false) (read : Reads (atom c.skipBlanks) Q) :
    Reads (negated c) Q := by
  rw [← Cursor.rest_skipBlanks] at ahead
  rw [negated]
  rcases parts : blanks c with ⟨_, first, within⟩
  obtain rfl : c.skipBlanks = first := congrArg Reading.next parts
  dsimp only
  rw [dif_neg (ne_true_of_eq_false ahead)]
  exact read.bind fun _ last => .of_ok last

/-! ## Atoms -/

/-- A group is read as the expression in it. -/
theorem reads_group {c : Cursor buffer} {rest : List UInt8} {P : Node → Cursor buffer → Prop}
    (there : c.rest.head? = some (byte '(')) (inside : Reads (expression (c.advance 1)) P)
    (closed : ∀ value next, P value next → afterBlanks next.rest = byte ')' :: rest) :
    Reads (atom c) fun value next => (∃ last, P value last) ∧ next.rest = rest := by
  have left : c.rest ≠ [] := by rintro empty; simp [empty] at there
  rw [atom, dif_neg left, if_pos there]
  refine inside.bind fun ⟨value, next, below⟩ holds => ?_
  have close := (next.rest_skipBlanks).trans (closed value next holds)
  exact (reads_expect close).bind fun ⟨_, last, bound⟩ after => .of_ok ⟨⟨next, holds⟩, after⟩

theorem reads_atom_string {c : Cursor buffer} {Q : Node → Cursor buffer → Prop} (left : c.rest ≠ [])
    (there : c.rest.head? = some (byte '"')) (read : Reads (string c left) Q) :
    Reads (atom c) Q := by
  rw [atom, dif_neg left, there, if_neg (by decide), if_pos rfl]
  exact read

theorem reads_atom_number {c : Cursor buffer} {Q : Node → Cursor buffer → Prop} (left : c.rest ≠ [])
    (ahead : numberAhead c.rest = true) (read : Reads (number c left) Q) :
    Reads (atom c) Q := by
  have opens (b : UInt8) (dark : isDigit b = false ∧ b ≠ byte '-') : c.rest.head? ≠ some b := by
    rintro first
    obtain ⟨more, there⟩ := List.head?_eq_some_iff.mp first
    rw [there, numberAhead, dark.1, beq_eq_false_iff_ne.mpr dark.2] at ahead
    contradiction
  rw [atom, dif_neg left, if_neg (opens _ (by decide)), if_neg (opens _ (by decide)), if_pos ahead]
  exact read

theorem opensWord_of_isDigit {b : UInt8} (digit : isDigit b = true) : opensWord b = false := by
  simp only [isDigit, Bool.and_eq_true, decide_eq_true_eq, UInt8.le_iff_toNat_le] at digit
  have bounds : 48 ≤ b.toNat ∧ b.toNat ≤ 57 := digit
  simp only [opensWord, isLetter, Bool.or_eq_false_iff, Bool.and_eq_false_iff,
    decide_eq_false_iff_not, UInt8.le_iff_toNat_le, beq_eq_false_iff_ne]
  refine ⟨⟨.inl ?_, .inl ?_⟩, ?_⟩
  · change ¬ 97 ≤ b.toNat; omega
  · change ¬ 65 ≤ b.toNat; omega
  · rintro rfl; exact absurd bounds (by decide)

/-- Where a word opens, it is what the rule for atoms reads. -/
theorem atom_eq_word {c : Cursor buffer} (left : c.rest ≠ [])
    (opens : c.rest.head?.any opensWord = true) : atom c = word c left := by
  obtain ⟨b, more, there⟩ := List.exists_cons_of_ne_nil left
  have first : opensWord b = true := by simpa [there] using opens
  have dark : b ≠ byte '(' ∧ b ≠ byte '"' ∧ isDigit b = false ∧ b ≠ byte '-' := by
    refine ⟨?_, ?_, ?_, ?_⟩
    · rintro rfl; exact absurd first (by decide)
    · rintro rfl; exact absurd first (by decide)
    · cases digit : isDigit b with
      | false => rfl
      | true => exact absurd first (by simp [opensWord_of_isDigit digit])
    · rintro rfl; exact absurd first (by decide)
  have number : numberAhead c.rest = false := by
    rw [there, numberAhead, dark.2.2.1, beq_eq_false_iff_ne.mpr dark.2.2.2]
    rfl
  have apart (b' : UInt8) (other : b ≠ b') : c.rest.head? ≠ some b' := by simpa [there] using other
  rw [atom, dif_neg left, if_neg (apart _ dark.1), if_neg (apart _ dark.2.1), number,
    if_neg Bool.false_ne_true]
  exact if_pos opens

theorem reads_atom_word {c : Cursor buffer} {Q : Node → Cursor buffer → Prop} (left : c.rest ≠ [])
    (opens : c.rest.head?.any opensWord = true) (read : Reads (word c left) Q) :
    Reads (atom c) Q := by
  rw [atom_eq_word left opens]
  exact read

/-- A word that nothing goes on with is read whole. -/
theorem reads_path {c : Cursor buffer} (left : c.rest ≠ []) {word : Word} {rest : List UInt8}
    (there : c.rest = word.bytes ++ rest) (ends : Ends rest) :
    Reads (Kit.word c left) fun value next =>
      (∃ source, value = wordNode source word.text) ∧ next.rest = rest := by
  obtain ⟨same, after⟩ := wordBytes_eq left there fun b first => (ends b first).1
  rcases parts : wordBytes c left with ⟨bytes, next, progress⟩
  rw [parts] at same after
  dsimp only at same after
  subst same
  have shut : next.rest.head? ≠ some (byte '(') := fun first => (ends _ (after ▸ first)).2 rfl
  have plain : (next.rest.head? = some (byte '(') && !word.bytes.contains (byte '.')) = false := by
    rw [decide_eq_false shut, Bool.false_and]
  rw [Kit.word, parts]
  dsimp only
  rw [plain]
  exact .of_ok ⟨⟨_, rfl⟩, after⟩

/-- A word before a parenthesis is read as a call. -/
theorem reads_call {c : Cursor buffer} (left : c.rest ≠ []) {name : CallName} {rest : List UInt8}
    (there : c.rest = name.bytes ++ byte '(' :: rest)
    {P : List Node → Cursor buffer → Prop}
    (inside : ∀ c' : Cursor buffer, c'.rest = byte '(' :: rest → Reads (arguments c') P) :
    Reads (Kit.word c left) fun value next =>
      ∃ source values, value = .tag source name.text values none ∧ P values next := by
  obtain ⟨same, after⟩ := wordBytes_eq left there fun b first => by
    obtain rfl : byte '(' = b := Option.some.inj first
    decide
  rcases parts : wordBytes c left with ⟨bytes, next, progress⟩
  rw [parts] at same after
  dsimp only at same after
  subst same
  have call : (next.rest.head? = some (byte '(') && !name.bytes.contains (byte '.')) = true := by
    simp [after, name.whole]
  rw [Kit.word, parts]
  dsimp only
  rw [call]
  exact (inside next after).bind fun ⟨values, last, below⟩ holds => .of_ok ⟨_, values, rfl, holds⟩

/-! ## Arguments -/

/-- Parentheses with nothing but blanks hold no arguments. -/
theorem reads_arguments_none {c : Cursor buffer} {rest inner : List UInt8}
    (there : c.rest = byte '(' :: inner) (empty : afterBlanks inner = byte ')' :: rest) :
    Reads (arguments c) fun values next => values = [] ∧ next.rest = rest := by
  rw [arguments]
  refine (reads_expect there).bind fun ⟨_, opened, progress⟩ after => ?_
  have close : opened.skipBlanks.rest = byte ')' :: rest := by
    rw [Cursor.rest_skipBlanks, after, empty]
  have head : (blanks opened).next.rest.head? = some (byte ')') := by
    change opened.skipBlanks.rest.head? = _
    rw [close]; rfl
  dsimp only
  rw [if_pos head]
  refine .of_ok ⟨rfl, ?_⟩
  change (opened.skipBlanks.advance 1).rest = rest
  rw [Cursor.rest_advance, close]
  rfl

/-- Anything else begins a list of arguments. -/
theorem reads_arguments_some {c : Cursor buffer} {inner : List UInt8}
    (there : c.rest = byte '(' :: inner)
    (more : (afterBlanks inner).head? ≠ some (byte ')')) {Q : List Node → Cursor buffer → Prop}
    (list : ∀ start first, first.rest = afterBlanks inner → Reads (argumentList start first) Q) :
    Reads (arguments c) Q := by
  rw [arguments]
  refine (reads_expect there).bind fun ⟨_, opened, progress⟩ after => ?_
  have first : opened.skipBlanks.rest = afterBlanks inner := by rw [Cursor.rest_skipBlanks, after]
  have head : (blanks opened).next.rest.head? ≠ some (byte ')') := by
    change opened.skipBlanks.rest.head? ≠ _
    rw [first]; exact more
  dsimp only
  rw [if_neg head]
  exact (list c.position _ first).bind fun ⟨values, next, below⟩ last => .of_ok last

theorem reads_argumentList_last {c : Cursor buffer} {start : Position} {rest : List UInt8}
    {P : Node → Prop}
    (read : Reads (expression c) fun value next =>
      P value ∧ afterBlanks next.rest = byte ')' :: rest) :
    Reads (argumentList start c) fun values next =>
      (∃ value, values = [value] ∧ P value) ∧ next.rest = rest := by
  rw [argumentList]
  refine read.bind fun ⟨value, next, below⟩ ⟨holds, close⟩ => ?_
  have head : (blanks next).next.rest.head? = some (byte ')') := by
    change next.skipBlanks.rest.head? = _
    rw [Cursor.rest_skipBlanks, close]; rfl
  simp only [head]
  rw [if_neg (by decide), if_pos trivial]
  refine .of_ok ⟨⟨value, rfl, holds⟩, ?_⟩
  change (next.skipBlanks.advance 1).rest = rest
  rw [Cursor.rest_advance, Cursor.rest_skipBlanks, close]
  rfl

theorem reads_argumentList_more {c : Cursor buffer} {start : Position} {rest : List UInt8}
    {P : Node → Prop}
    (read : Reads (expression c) fun value next =>
      P value ∧ afterBlanks next.rest = byte ',' :: rest)
    {Q : List Node → Cursor buffer → Prop}
    (others : ∀ c' : Cursor buffer, c'.rest = rest → Reads (argumentList start c') Q) :
    Reads (argumentList start c) fun values next =>
      ∃ value following, values = value :: following ∧ P value ∧ Q following next := by
  rw [argumentList]
  refine read.bind fun ⟨value, next, below⟩ ⟨holds, comma⟩ => ?_
  have head : (blanks next).next.rest.head? = some (byte ',') := by
    change next.skipBlanks.rest.head? = _
    rw [Cursor.rest_skipBlanks, comma]; rfl
  have after : (next.skipBlanks.advance 1).rest = rest := by
    rw [Cursor.rest_advance, Cursor.rest_skipBlanks, comma]
    rfl
  simp only [head]
  rw [if_pos trivial]
  exact (others _ after).bind fun ⟨values, last, bound⟩ more =>
    .of_ok ⟨value, values, rfl, holds, more⟩

end Stencil.Grammar.Kit
