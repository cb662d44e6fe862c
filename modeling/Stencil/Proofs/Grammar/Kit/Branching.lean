import Mathlib
import Stencil.Proofs.Grammar.Kit.TagRules
import Stencil.Proofs.Places

/-! # Where a conditional goes on

Behind each condition and its body the grammar looks ahead whether a further branch follows. A
conditional that has been read so far is a relation between two cursors, and what is read from the
first is told by what is read from the second: the branches that follow there, if any, and then the
nodes behind the conditional. The look ahead commits to a branch wherever one opens, and at one kind
of text besides: an `if` with spaces or tabs but no parenthesis behind them.
-/

namespace Stencil.Grammar.Kit

variable {buffer : Buffer}

/-! ## Readings as pairs -/

/-- What a rule reads, without the bound on what remains. -/
def outcome {limit : Nat} {α : Type} (result : Except Error (Reading buffer limit α)) :
    Except Error (α × Cursor buffer) :=
  (fun r => (r.value, r.next)) <$> result

section Outcomes

variable {buffer' : Buffer} {limit limit' : Nat} {α β γ : Type}
  (result : Except Error (Reading buffer limit α))

theorem outcome_pure (r : Reading buffer limit α) :
    outcome (pure r) = pure (r.value, r.next) := rfl

theorem outcome_bind (f : Reading buffer limit α → Except Error (Reading buffer' limit' β)) :
    outcome (result >>= f) = result >>= fun r => outcome (f r) := map_bind _ _ _

theorem bind_outcome (f : α × Cursor buffer → Except Error γ) :
    outcome result >>= f = result >>= fun r => f (r.value, r.next) := bind_map_left _ _ _

theorem exists_of_map {first : Except Error α} {f : α → β} {value : β}
    (ok : f <$> first = .ok value) : ∃ a, first = .ok a ∧ f a = value := by
  cases first with
  | error why => cases ok
  | ok a => exact ⟨a, rfl, Except.ok.inj ok⟩

/-- Both steps have succeeded where the whole has. -/
theorem exists_of_bind {first : Except Error α} {f : α → Except Error β} {value : β}
    (ok : first >>= f = .ok value) : ∃ a, first = .ok a ∧ f a = .ok value := by
  cases first with
  | error why => cases ok
  | ok a => exact ⟨a, rfl, ok⟩

end Outcomes

/-- A node in front of the nodes behind it. -/
def inFront (node : Node) (read : List Node × Cursor buffer) : List Node × Cursor buffer :=
  (node :: read.1, read.2)

/-- A node is read, and then those behind it. -/
theorem outcome_nodes_cons {opened : Option Position} {c : Cursor buffer} (left : c.rest ≠ [])
    (inside : c.rest.head? ≠ some (byte '\x7d')) :
    outcome (nodes opened c) =
      outcome (unit opened.isSome c left) >>= fun (node, next) =>
        inFront node <$> outcome (nodes opened next) := by
  have goesOn : ¬(opened.isSome && c.rest.head? == some (byte '\x7d')) = true := by
    simp [inside]
  rw [nodes.eq_def, dif_neg left, if_neg goesOn, outcome_bind, bind_outcome]
  refine bind_congr fun r => ?_
  dsimp only
  cases nodes opened r.next <;> rfl

theorem outcome_unit_tag {c : Cursor buffer} {inBody : Bool} (left : c.rest ≠ [])
    (ahead : tagAhead c.rest = true) : outcome (unit inBody c left) = outcome (tag c left) := by
  have dark : escapeAhead c.rest = false := by
    obtain ⟨more, there⟩ := List.head?_eq_some_iff.mp (head_of_tagAhead ahead)
    rw [there]
    cases more <;> rfl
  rw [unit, dark, if_neg Bool.false_ne_true, if_pos ahead]

/-! ## One step of the grammar -/

/-- What is read behind the `else` of a branch: a condition with its body and further branches, or
a last body. -/
def branchesFrom (c : Cursor buffer) : Except Error (List (Node × List Node) × Cursor buffer) :=
  if ifWord.isPrefixOf c.rest then do
    let (condition, next) ← outcome (oneArgument .elseCondition c.position
      (c.advance ifWord.length).skipBlanks)
    let (block, next) ← outcome (requiredBody .elseCondition c.position next)
    let (others, next) ← outcome (branches next)
    return ((condition, block) :: others, next)
  else do
    let (block, next) ← outcome (requiredBody .otherwise c.position c)
    return ([(.literal (next.source c.position) (.bool true), block)], next)

/-- Without a branch ahead nothing is read. -/
theorem outcome_branches_none {c : Cursor buffer} (none : branchAhead? c.rest = none) :
    outcome (branches c) = .ok ([], c) := by
  rw [branches, none]
  rfl

/-- A branch ahead is read from behind its `else` on. -/
theorem outcome_branches_some {c : Cursor buffer} {length : Nat}
    (ahead : branchAhead? c.rest = some length) :
    outcome (branches c) = branchesFrom (c.advance length) := by
  rw [branches, ahead, branchesFrom]
  dsimp only
  by_cases conditional : ifWord.isPrefixOf (c.advance length).rest = true
  · rw [if_pos conditional, if_pos (show ifWord.isPrefixOf (skip length c).next.rest = true from
      conditional)]
    simp only [outcome_bind, bind_outcome, outcome_pure]
    rfl
  · rw [if_neg conditional, if_neg (show ¬ifWord.isPrefixOf (skip length c).next.rest = true from
      conditional)]
    simp only [outcome_bind, bind_outcome, outcome_pure]
    rfl

/-- What does not open with a parenthesis is no argument. -/
theorem oneArgument_fault {construct : Construct} {start : Position} {c : Cursor buffer}
    (apart : c.rest.head? ≠ some (byte '(')) :
    oneArgument construct start c = fault (c.advance 1) c.position .argumentsStart := by
  rw [oneArgument, arguments, expect, dif_neg apart]
  rfl

/-- An `if` without a parenthesis is a fault, blanks or none behind it. -/
theorem branchesFrom_fault {c : Cursor buffer} {more : List UInt8} (there : c.rest = ifWord ++ more)
    (apart : (afterBlanks more).head? ≠ some (byte '(')) :
    ∃ source, branchesFrom c = .error (.parse .argumentsStart source) := by
  have conditional : ifWord.isPrefixOf c.rest = true := by
    rw [there]
    rfl
  have without : (c.advance ifWord.length).skipBlanks.rest.head? ≠ some (byte '(') := by
    rw [Cursor.rest_skipBlanks, Cursor.rest_advance, there, List.drop_left]
    exact apart
  rw [branchesFrom, if_pos conditional, oneArgument_fault without]
  exact ⟨_, rfl⟩

/-- A conditional is read part by part. -/
theorem outcome_tag_conditional {c : Cursor buffer} (left : c.rest ≠ []) {more : List UInt8}
    (there : c.rest = byte '#' :: (ifWord ++ byte '(' :: more)) :
    outcome (tag c left) = (do
      let (condition, next) ← outcome (oneArgument .condition c.position
        (c.advance (ifWord.length + 1)))
      let (block, next) ← outcome (requiredBody .condition c.position next)
      let (others, next) ← outcome (branches next)
      return (.conditional (next.source c.position) condition block others, next)) := by
  obtain ⟨unnamed, name, opened⟩ := run_name left there (by decide) (by decide)
  have place : (run isNameByte (pop c left).next).next = c.advance (ifWord.length + 1) := by
    refine Cursor.eq_of_remaining ?_
    rw [Cursor.remaining_advance, Cursor.remaining, opened, Cursor.remaining, there]
    rfl
  rw [tag]
  dsimp only
  rw [if_neg unnamed, name, if_pos (by decide)]
  simp only [outcome_bind, bind_outcome, outcome_pure]
  rw [place]

/-! ## What the look ahead commits to -/

/-- The bytes open a branch: with the brace of a body, or with `if` and the parenthesis of a
condition, between which spaces and tabs may stand. -/
def OpensBranch (rest : List UInt8) : Prop :=
  rest.head? = some (byte '\x7b') ∨
    ∃ gap more, LineBlank gap ∧ rest = ifWord ++ gap ++ byte '(' :: more

/-- The bytes begin with an `if` that spaces or tabs follow, but no parenthesis behind them. -/
def Dangles (rest : List UInt8) : Prop :=
  ∃ gap more, LineBlank gap ∧ gap ≠ [] ∧ rest = ifWord ++ gap ++ more ∧
    ∀ b ∈ more.head?, Text.isLineBlank b = false ∧ b ≠ byte '('

/-- The bytes begin with an `else` between spaces and tabs, and go on as stated. -/
def AfterElse (P : List UInt8 → Prop) (rest : List UInt8) : Prop :=
  ∃ gap gap' more, LineBlank gap ∧ LineBlank gap' ∧ rest = gap ++ elseWord ++ gap' ++ more ∧ P more

/-- Bytes are split where spaces and tabs end. -/
theorem exists_lineBlank (rest : List UInt8) : ∃ gap, LineBlank gap ∧
    rest = gap ++ afterLineBlanks rest ∧
      ∀ b ∈ (afterLineBlanks rest).head?, Text.isLineBlank b = false := by
  refine ⟨rest.takeWhile Text.isLineBlank, fun b member => List.mem_takeWhile_imp member,
    List.takeWhile_append_dropWhile.symm, fun b first => ?_⟩
  have dark := List.head?_dropWhile_not Text.isLineBlank rest
  rw [show (rest.dropWhile Text.isLineBlank).head? = some b from first] at dark
  exact dark

/-- What opens a branch is taken for one. -/
theorem branchOpens_of_opens {rest : List UInt8} (opens : OpensBranch rest) :
    branchOpens rest = true := by
  rcases opens with brace | ⟨gap, more, blank, rfl⟩
  · rw [branchOpens, brace]
    simp
  · rw [List.append_assoc, branchOpens_if]
    cases gap with
    | nil => rfl
    | cons b gap => simp [opensCondition, blank b List.mem_cons_self]

/-- What only dangles is taken for a branch as well. -/
theorem branchOpens_of_dangles {rest : List UInt8} (dangles : Dangles rest) :
    branchOpens rest = true := by
  obtain ⟨gap, more, blank, some, rfl, -⟩ := dangles
  obtain ⟨b, gap, rfl⟩ := List.exists_cons_of_ne_nil some
  rw [List.append_assoc, branchOpens_if]
  simp [opensCondition, blank b List.mem_cons_self]

/-- The look ahead takes for a branch what opens one and what dangles, and nothing else. -/
theorem opens_or_dangles {rest : List UInt8} (ahead : branchOpens rest = true) :
    OpensBranch rest ∨ Dangles rest := by
  by_cases brace : rest.head? = some (byte '\x7b')
  · exact .inl (.inl brace)
  have word : ifWord.isPrefixOf rest = true := by
    simp only [branchOpens, Bool.or_eq_true, Bool.and_eq_true, beq_iff_eq] at ahead
    exact (ahead.resolve_right brace).1
  obtain ⟨behind, rfl⟩ := List.isPrefixOf_iff_prefix.mp word
  rw [branchOpens_if] at ahead
  obtain ⟨gap, blank, split, dark⟩ := exists_lineBlank behind
  by_cases parenthesis : (afterLineBlanks behind).head? = some (byte '(')
  · obtain ⟨more, tail⟩ := List.head?_eq_some_iff.mp parenthesis
    exact .inl (.inr ⟨gap, more, blank, by rw [List.append_assoc, ← tail, ← split]⟩)
  · refine .inr ⟨gap, afterLineBlanks behind, blank, ?_, by rw [List.append_assoc, ← split], ?_⟩
    · rintro rfl
      rw [List.nil_append] at split
      cases first : behind.head? with
      | none => simp [first] at ahead
      | some b =>
        rw [← split] at dark parenthesis
        simp only [first, Option.any_some, opensCondition, Bool.or_eq_true, beq_iff_eq,
          dark b first, Bool.false_eq_true, or_false] at ahead
        exact parenthesis (ahead ▸ first)
    · intro b first
      exact ⟨dark b first, fun same => parenthesis (same ▸ first)⟩

/-- What dangles opens no branch. -/
theorem Dangles.not_opens {rest : List UInt8} (dangles : Dangles rest) : ¬ OpensBranch rest := by
  obtain ⟨gap, more, blank, some, rfl, apart⟩ := dangles
  rintro (brace | ⟨gap', more', blank', same⟩)
  · exact absurd (Option.some.inj brace) (by decide)
  · rw [List.append_assoc, List.append_assoc] at same
    have behind := congrArg afterLineBlanks (List.append_cancel_left same)
    rw [afterLineBlanks_append blank, afterLineBlanks_append blank', afterLineBlanks,
      afterLineBlanks, List.dropWhile_cons_of_neg (by decide)] at behind
    cases more with
    | nil => cases behind
    | cons b more =>
      obtain ⟨dark, other⟩ := apart b rfl
      rw [List.dropWhile_cons_of_neg (by simp [dark])] at behind
      exact other (List.cons.inj behind).1

/-- What goes on behind `else` as a branch may does so behind all spaces and tabs. -/
theorem AfterElse.behind {P : List UInt8 → Prop} {rest : List UInt8} (after : AfterElse P rest)
    (ahead : ∀ more, P more → branchOpens more = true) :
    P (afterLineBlanks ((afterLineBlanks rest).drop elseWord.length)) := by
  obtain ⟨gap, gap', more, blank, blank', rfl, goesOn⟩ := after
  rw [afterLineBlanks_else blank, List.drop_left, afterLineBlanks_append blank',
    afterLineBlanks_of_opens (ahead more goesOn)]
  exact goesOn

/-- Where an `if` dangles no branch opens. -/
theorem AfterElse.not_opens {rest : List UInt8} (dangles : AfterElse Dangles rest) :
    ¬ AfterElse OpensBranch rest := fun opens =>
  (dangles.behind fun _ => branchOpens_of_dangles).not_opens
    (opens.behind fun _ => branchOpens_of_opens)

/-- No branch follows just where none opens and nothing dangles. -/
theorem branchAhead?_eq_none {rest : List UInt8} : branchAhead? rest = none ↔
    ¬ AfterElse OpensBranch rest ∧ ¬ AfterElse Dangles rest := by
  constructor
  · intro none
    constructor
    · rintro ⟨gap, gap', more, blank, blank', rfl, opens⟩
      rw [branchAhead?_of_opens blank blank' (branchOpens_of_opens opens)] at none
      cases none
    · rintro ⟨gap, gap', more, blank, blank', rfl, dangles⟩
      rw [branchAhead?_of_opens blank blank' (branchOpens_of_dangles dangles)] at none
      cases none
  · rintro ⟨unopened, settled⟩
    obtain ⟨gap, blank, split, -⟩ := exists_lineBlank rest
    by_cases word : elseWord.isPrefixOf (afterLineBlanks rest) = true
    · obtain ⟨behind, whole⟩ := List.isPrefixOf_iff_prefix.mp word
      obtain ⟨gap', blank', split', -⟩ := exists_lineBlank behind
      have parts : rest = gap ++ elseWord ++ gap' ++ afterLineBlanks behind := by
        rw [List.append_assoc, ← split', List.append_assoc, whole, ← split]
      have closed : ¬ branchOpens (afterLineBlanks behind) = true := fun opens =>
        (opens_or_dangles opens).elim
          (fun opens => unopened ⟨gap, gap', _, blank, blank', parts, opens⟩)
          fun dangles => settled ⟨gap, gap', _, blank, blank', parts, dangles⟩
      rw [branchAhead?]
      dsimp only
      rw [if_pos word, ← whole, List.drop_left, if_neg closed]
    · rw [branchAhead?, if_neg word]

/-! ## Conditionals that have been read so far -/

/-- From the first cursor to the second the parts of a conditional have been read: its condition and
body, and those of a number of `else if` branches. -/
inductive Conditional (c : Cursor buffer) (tested : Node) (first : List Node) :
    List (Node × List Node) → Cursor buffer → Prop
  | opening {more : List UInt8} {next behind : Cursor buffer}
      (word : c.rest = byte '#' :: (ifWord ++ byte '(' :: more))
      (condition : outcome (oneArgument .condition c.position (c.advance (ifWord.length + 1))) =
        .ok (tested, next))
      (body : outcome (requiredBody .condition c.position next) = .ok (first, behind)) :
      Conditional c tested first [] behind
  | elseIf {others : List (Node × List Node)} {before word next behind : Cursor buffer}
      {gap gap' gap'' more : List UInt8} {value : Node} {block : List Node}
      (earlier : Conditional c tested first others before) (blank : LineBlank gap)
      (blank' : LineBlank gap') (blank'' : LineBlank gap'')
      (there : before.rest = gap ++ elseWord ++ gap' ++ (ifWord ++ gap'' ++ byte '(' :: more))
      (place : word = before.advance (gap ++ elseWord ++ gap').length)
      (condition : outcome (oneArgument .elseCondition word.position
        (word.advance (ifWord ++ gap'').length)) = .ok (value, next))
      (body : outcome (requiredBody .elseCondition word.position next) = .ok (block, behind)) :
      Conditional c tested first (others ++ [(value, block)]) behind

/-- A conditional with the branches that were read last, and the nodes behind it. -/
def conditionalThen (opened : Option Position) (start : Position) (tested : Node)
    (first : List Node) (others : List (Node × List Node))
    (read : List (Node × List Node) × Cursor buffer) : Except Error (List Node × Cursor buffer) :=
  inFront (.conditional (read.2.source start) tested first (others ++ read.1)) <$>
    outcome (nodes opened read.2)

namespace Conditional

variable {c behind : Cursor buffer} {tested : Node} {first : List Node}
  {others : List (Node × List Node)}

/-- A conditional begins with a hash, the word and a parenthesis. -/
theorem opens (conditional : Conditional c tested first others behind) :
    ∃ more, c.rest = byte '#' :: (ifWord ++ byte '(' :: more) := by
  induction conditional with
  | opening word => exact ⟨_, word⟩
  | elseIf _ _ _ _ _ _ _ _ ih => exact ih

/-- What is read of a conditional is told by what is read behind its last branch so far. -/
theorem outcome_tag (conditional : Conditional c tested first others behind) (left : c.rest ≠ []) :
    outcome (tag c left) = outcome (branches behind) >>= fun (more, next) =>
      return (.conditional (next.source c.position) tested first (others ++ more), next) := by
  induction conditional with
  | opening word condition body =>
    rw [outcome_tag_conditional left word, condition]
    change (outcome (requiredBody _ _ _) >>= _) = _
    rw [body]
    rfl
  | @elseIf others before word next behind gap gap' gap'' more value block earlier blank blank'
      blank'' there place condition body ih =>
    have open' : OpensBranch (ifWord ++ gap'' ++ byte '(' :: more) := .inr ⟨gap'', more, blank'', rfl⟩
    have ahead : branchAhead? before.rest = some (gap ++ elseWord ++ gap').length := by
      rw [there]
      exact branchAhead?_of_opens blank blank' (branchOpens_of_opens open')
    have word' : word.rest = ifWord ++ gap'' ++ byte '(' :: more := by
      rw [place, Cursor.rest_advance, there, List.drop_left]
    have conditional : ifWord.isPrefixOf word.rest = true := by
      rw [word', List.append_assoc]
      rfl
    have parenthesis : (word.advance ifWord.length).skipBlanks =
        word.advance (ifWord ++ gap'').length := by
      refine Cursor.eq_of_remaining ?_
      rw [Cursor.remaining, Cursor.remaining, Cursor.rest_skipBlanks, Cursor.rest_advance,
        Cursor.rest_advance, word', List.drop_left, List.append_assoc, List.drop_left,
        afterBlanks_append blank''.blank, afterBlanks_cons _ (by decide)]
    rw [ih, outcome_branches_some ahead, ← place, branchesFrom, if_pos conditional, parenthesis,
      condition]
    change (outcome (requiredBody _ _ _) >>= _) >>= _ = _
    rw [body]
    change (outcome (branches behind) >>= _) >>= _ = _
    rw [bind_assoc]
    refine bind_congr fun r => ?_
    dsimp only
    rw [List.append_assoc]
    rfl

/-- Once its parts are read, a conditional goes on with the branches behind it. -/
theorem outcome_nodes (conditional : Conditional c tested first others behind)
    (opened : Option Position) :
    outcome (nodes opened c) =
      outcome (branches behind) >>= conditionalThen opened c.position tested first others := by
  obtain ⟨more, there⟩ := conditional.opens
  have left : c.rest ≠ [] := by simp [there]
  have inside : c.rest.head? ≠ some (byte '\x7d') := by
    rw [there]
    exact fun same => absurd (Option.some.inj same) (by decide)
  have ahead : tagAhead c.rest = true := there ▸ tagAhead_name (by decide) (by decide)
  rw [outcome_nodes_cons left inside, outcome_unit_tag left ahead, conditional.outcome_tag left]
  cases outcome (branches behind) <;> rfl

end Conditional

/-! ## An `else` that is text -/

/-- Raw text goes on over bytes that open and close nothing and begin no escape. -/
theorem rawLength_add {inBody : Bool} {data : List UInt8} (rest : List UInt8)
    (plain : ∀ b ∈ data, b ≠ byte '#' ∧ b ≠ byte '\x7d' ∧ b ≠ byte '\\') :
    rawLength inBody (data ++ rest) = data.length + rawLength inBody rest := by
  induction data with
  | nil => exact (Nat.zero_add _).symm
  | cons b data ih =>
    obtain ⟨hash, brace, slash⟩ := plain b List.mem_cons_self
    have goesOn : rawEnds inBody (b :: (data ++ rest)) = false :=
      rawEnds_eq_false hash (fun _ => brace) fun same => absurd same slash
    rw [List.cons_append, rawLength, goesOn, if_neg Bool.false_ne_true,
      ih fun b' member => plain b' (List.mem_cons_of_mem _ member), List.length_cons]
    omega

/-- Raw text is a node in front of those behind it. -/
theorem outcome_nodes_raw {opened : Option Position} {c : Cursor buffer} (left : c.rest ≠ [])
    (inside : c.rest.head? ≠ some (byte '\x7d')) (goesOn : rawEnds opened.isSome c.rest = false) :
    outcome (nodes opened c) = inFront (rawText opened.isSome c left).value <$>
      outcome (nodes opened (rawText opened.isSome c left).next) := by
  simp only [rawEnds, Bool.or_eq_false_iff] at goesOn
  rw [outcome_nodes_cons left inside, unit, goesOn.1.2, goesOn.2, if_neg Bool.false_ne_true,
    if_neg Bool.false_ne_true]
  rfl

/-- Bytes that open and close nothing and begin no escape begin a raw node. -/
theorem outcome_nodes_plain (opened : Option Position) {c : Cursor buffer} {data more : List UInt8}
    (some : data ≠ []) (there : c.rest = data ++ more)
    (plain : ∀ b ∈ data, b ≠ byte '#' ∧ b ≠ byte '\x7d' ∧ b ≠ byte '\\') :
    ∃ length, length = data.length + rawLength opened.isSome more ∧ outcome (nodes opened c) =
      inFront (.raw ((c.advance length).source c.position) (c.rest.take length)) <$>
        outcome (nodes opened (c.advance length)) := by
  obtain ⟨b, data, rfl⟩ := List.exists_cons_of_ne_nil some
  obtain ⟨hash, brace, slash⟩ := plain b List.mem_cons_self
  have left : c.rest ≠ [] := by simp [there]
  have inside : c.rest.head? ≠ Option.some (byte '\x7d') := by simpa [there] using brace
  have goesOn : rawEnds opened.isSome c.rest = false := by
    rw [there]
    exact rawEnds_eq_false hash (fun _ => brace) fun same => absurd same slash
  refine ⟨rawLength opened.isSome c.rest.tail + 1, ?_, outcome_nodes_raw left inside goesOn⟩
  rw [there, List.cons_append, List.tail_cons, List.length_cons,
    rawLength_add more fun b' member => plain b' (List.mem_cons_of_mem _ member)]
  omega

/-- A text of such bytes is one raw node. -/
theorem outcome_nodes_text {c : Cursor buffer} (left : c.rest ≠ [])
    (plain : ∀ b ∈ c.rest, b ≠ byte '#' ∧ b ≠ byte '\x7d' ∧ b ≠ byte '\\') :
    outcome (nodes none c) =
      .ok ([.raw ((c.advance c.rest.length).source c.position) c.rest],
        c.advance c.rest.length) := by
  have ended : (c.advance c.rest.length).rest = [] := by
    rw [Cursor.rest_advance, List.drop_length]
  obtain ⟨_, rfl, read⟩ := outcome_nodes_plain none left (List.append_nil _).symm plain
  rw [read, rawLength, Nat.add_zero, List.take_length, nodes.eq_def none (c.advance _),
    dif_pos ended]
  rfl

/-- A word `else` between spaces and tabs is read as raw text, and reading goes on behind it. -/
theorem outcome_nodes_else {opened : Option Position} {c : Cursor buffer} {gap more : List UInt8}
    (blank : LineBlank gap) (there : c.rest = gap ++ elseWord ++ more) :
    ∃ source data next, outcome (nodes opened c) =
      inFront (.raw source (gap ++ elseWord ++ data)) <$> outcome (nodes opened next) := by
  have plain : ∀ b ∈ gap ++ elseWord, b ≠ byte '#' ∧ b ≠ byte '\x7d' ∧ b ≠ byte '\\' := by
    have word : ∀ b ∈ elseWord, b ≠ byte '#' ∧ b ≠ byte '\x7d' ∧ b ≠ byte '\\' := by decide
    intro b member
    refine (List.mem_append.mp member).elim (fun member => ?_) (word b)
    have line := blank b member
    refine ⟨?_, ?_, ?_⟩ <;> rintro rfl <;> exact absurd line (by decide)
  obtain ⟨length, is, read⟩ :=
    outcome_nodes_plain opened (by simp [elseWord]) there plain
  rw [there, is, List.take_length_add_append] at read
  exact ⟨_, _, _, read⟩

/-! ## The law of branches -/

section Law

variable {c behind : Cursor buffer} {tested : Node} {first : List Node}
  {others : List (Node × List Node)}

/-- Behind an `else` at least one branch is read. -/
theorem branchesFrom_ne_nil {read : List (Node × List Node) × Cursor buffer}
    (ok : branchesFrom c = .ok read) : read.1 ≠ [] := by
  rw [branchesFrom] at ok
  split at ok
  · obtain ⟨_, -, ok⟩ := exists_of_bind ok
    obtain ⟨_, -, ok⟩ := exists_of_bind ok
    obtain ⟨_, -, ok⟩ := exists_of_bind ok
    cases ok
    exact List.cons_ne_nil _ _
  · obtain ⟨_, -, ok⟩ := exists_of_bind ok
    cases ok
    exact List.cons_ne_nil _ _

/-- With a branch behind it a conditional is read as with that branch. -/
theorem Conditional.outcome_nodes_branch (conditional : Conditional c tested first others behind)
    (opened : Option Position) {gap gap' more : List UInt8} (blank : LineBlank gap)
    (blank' : LineBlank gap') (there : behind.rest = gap ++ elseWord ++ gap' ++ more)
    (opens : branchOpens more = true) :
    outcome (nodes opened c) =
      branchesFrom (behind.advance (gap ++ elseWord ++ gap').length) >>=
        conditionalThen opened c.position tested first others := by
  rw [conditional.outcome_nodes, outcome_branches_some]
  rw [there]
  exact branchAhead?_of_opens blank blank' opens

/-- Without a branch behind it a conditional is over. -/
theorem Conditional.outcome_nodes_none (conditional : Conditional c tested first others behind)
    (opened : Option Position) (none : branchAhead? behind.rest = none) :
    outcome (nodes opened c) =
      inFront (.conditional (behind.source c.position) tested first others) <$>
        outcome (nodes opened behind) := by
  rw [conditional.outcome_nodes, outcome_branches_none none]
  change conditionalThen _ _ _ _ _ ([], behind) = _
  rw [conditionalThen, List.append_nil]

/-- Behind a conditional that has been read so far a further branch is read wherever one opens, and
also where an `if` dangles, which fails unless a parenthesis stands behind other blanks. Otherwise
the conditional ends there, and what follows is read as the nodes behind it; an `else` among it
begins a raw node. So as long as nothing dangles the conditional goes on just when a branch opens.
-/
theorem nodes_conditional (conditional : Conditional c tested first others behind)
    (opened : Option Position) :
    (∀ gap gap' more, LineBlank gap → LineBlank gap' →
      behind.rest = gap ++ elseWord ++ gap' ++ more → OpensBranch more ∨ Dangles more →
        outcome (nodes opened c) =
          branchesFrom (behind.advance (gap ++ elseWord ++ gap').length) >>=
            conditionalThen opened c.position tested first others) ∧
    (∀ gap gap' more, LineBlank gap → LineBlank gap' →
      behind.rest = gap ++ elseWord ++ gap' ++ (ifWord ++ more) → Dangles (ifWord ++ more) →
        (afterBlanks more).head? ≠ some (byte '(') →
          ∃ source, outcome (nodes opened c) = .error (.parse .argumentsStart source)) ∧
    (¬ AfterElse OpensBranch behind.rest → ¬ AfterElse Dangles behind.rest →
      outcome (nodes opened c) =
          inFront (.conditional (behind.source c.position) tested first others) <$>
            outcome (nodes opened behind) ∧
        ∀ gap more, LineBlank gap → behind.rest = gap ++ elseWord ++ more →
          ∃ source data next, outcome (nodes opened behind) =
            inFront (.raw source (gap ++ elseWord ++ data)) <$> outcome (nodes opened next)) ∧
    (¬ AfterElse Dangles behind.rest → ∀ values last, outcome (nodes opened c) = .ok (values, last) →
      (AfterElse OpensBranch behind.rest ↔ ∃ source more siblings, more ≠ [] ∧
        values = .conditional source tested first (others ++ more) :: siblings)) := by
  refine ⟨?_, fun gap gap' more blank blank' there dangles apart => ?_,
    fun unopened settled => ?_, fun settled values last ok => ?_⟩
  · rintro gap gap' more blank blank' there (opens | dangles)
    · exact conditional.outcome_nodes_branch opened blank blank' there (branchOpens_of_opens opens)
    · exact conditional.outcome_nodes_branch opened blank blank' there
        (branchOpens_of_dangles dangles)
  · have word : (behind.advance (gap ++ elseWord ++ gap').length).rest = ifWord ++ more := by
      rw [Cursor.rest_advance, there, List.drop_left]
    obtain ⟨source, fails⟩ := branchesFrom_fault word apart
    rw [conditional.outcome_nodes_branch opened blank blank' there
      (branchOpens_of_dangles dangles), fails]
    exact ⟨source, rfl⟩
  · have none := branchAhead?_eq_none.mpr ⟨unopened, settled⟩
    exact ⟨conditional.outcome_nodes_none opened none,
      fun gap more blank there => outcome_nodes_else blank there⟩
  · constructor
    · rintro ⟨gap, gap', more, blank, blank', there, opens⟩
      rw [conditional.outcome_nodes_branch opened blank blank' there
        (branchOpens_of_opens opens)] at ok
      obtain ⟨read, branches, ok⟩ := exists_of_bind ok
      obtain ⟨siblings, -, same⟩ := exists_of_map ok
      exact ⟨_, read.1, siblings.1, branchesFrom_ne_nil branches, (congrArg Prod.fst same).symm⟩
    · rintro ⟨source, more, siblings, some, rfl⟩
      by_contra unopened
      rw [conditional.outcome_nodes_none opened (branchAhead?_eq_none.mpr ⟨unopened, settled⟩)] at ok
      obtain ⟨_, -, same⟩ := exists_of_map ok
      have branches : others = others ++ more :=
        (Node.conditional.inj (List.cons.inj (congrArg Prod.fst same)).1).2.2.2
      exact some (List.self_eq_append_right.mp branches)

private theorem lineBlank_space : LineBlank [byte ' '] :=
  fun _ member => List.mem_singleton.mp member ▸ rfl

/-- A conditional with a further branch, before an `else` that is prose. -/
private def prose : Buffer :=
  ⟨"t", "#if(a) \x7bA\x7d else if(b) \x7bB\x7d else is prose".toList.map byte⟩

private def proseAt (offset : Nat) : Cursor prose := (Cursor.start prose).advance offset

private def proseSource (start stop : Nat) : Source := ⟨"t", 0, start, start, stop, prose.text⟩

private theorem prose_conditional : Conditional (Cursor.start prose)
    (.identifier (proseSource 4 5) ⟨[.key "a"]⟩) [.raw (proseSource 8 9) [byte 'A']]
    [(.identifier (proseSource 19 20) ⟨[.key "b"]⟩, [.raw (proseSource 23 24) [byte 'B']])]
    (proseAt 25) := by
  have condition : outcome (oneArgument .condition .origin (proseAt 3)) =
      .ok (.identifier (proseSource 4 5) ⟨[.key "a"]⟩, proseAt 6) := by cbv
  have body : outcome (requiredBody .condition .origin (proseAt 6)) =
      .ok ([.raw (proseSource 8 9) [byte 'A']], proseAt 10) := by cbv
  have condition' : outcome (oneArgument .elseCondition (proseAt 16).position (proseAt 18)) =
      .ok (.identifier (proseSource 19 20) ⟨[.key "b"]⟩, proseAt 21) := by cbv
  have body' : outcome (requiredBody .elseCondition (proseAt 16).position (proseAt 21)) =
      .ok ([.raw (proseSource 23 24) [byte 'B']], proseAt 25) := by cbv
  have opening : Conditional (Cursor.start prose) _ _ [] _ := .opening rfl condition body
  exact opening.elseIf lineBlank_space lineBlank_space lineBlank_nil rfl rfl condition' body'

/-- The prose is raw text behind the conditional. -/
theorem nodes_conditional_prose :
    (Conditional (Cursor.start prose) (.identifier (proseSource 4 5) ⟨[.key "a"]⟩)
      [.raw (proseSource 8 9) [byte 'A']]
      [(.identifier (proseSource 19 20) ⟨[.key "b"]⟩, [.raw (proseSource 23 24) [byte 'B']])]
      (proseAt 25)) ∧
    ¬ AfterElse OpensBranch (proseAt 25).rest ∧ ¬ AfterElse Dangles (proseAt 25).rest ∧
    outcome (nodes none (Cursor.start prose)) =
      inFront (.conditional (proseSource 0 25) (.identifier (proseSource 4 5) ⟨[.key "a"]⟩)
        [.raw (proseSource 8 9) [byte 'A']]
        [(.identifier (proseSource 19 20) ⟨[.key "b"]⟩, [.raw (proseSource 23 24) [byte 'B']])]) <$>
          outcome (nodes none (proseAt 25)) ∧
    ∃ source data next, outcome (nodes none (proseAt 25)) =
      inFront (.raw source ([byte ' '] ++ elseWord ++ data)) <$> outcome (nodes none next) := by
  obtain ⟨unopened, settled⟩ :=
    branchAhead?_eq_none.mp (show branchAhead? (proseAt 25).rest = none by decide)
  obtain ⟨ends, text⟩ := (nodes_conditional prose_conditional none).2.2.1 unopened settled
  exact ⟨prose_conditional, unopened, settled, ends, text [byte ' '] _ lineBlank_space rfl⟩

/-- A conditional before an `else` whose `if` has no condition. -/
private def dangling : Buffer :=
  ⟨"t", "#if(a) \x7bA\x7d else if you like".toList.map byte⟩

/-- Not wherever no branch opens is what follows a conditional read as the nodes behind it. -/
theorem not_nodes_conditional :
    ¬ ∀ (buffer : Buffer) (c behind : Cursor buffer) (tested : Node) (first : List Node)
      (others : List (Node × List Node)), Conditional c tested first others behind →
        ¬ AfterElse OpensBranch behind.rest → ∀ opened, outcome (nodes opened c) =
          inFront (.conditional (behind.source c.position) tested first others) <$>
            outcome (nodes opened behind) := by
  intro claimed
  have condition : outcome (oneArgument .condition .origin ((Cursor.start dangling).advance 3)) =
      .ok (.identifier ⟨"t", 0, 4, 4, 5, dangling.text⟩ ⟨[.key "a"]⟩,
        (Cursor.start dangling).advance 6) := by cbv
  have body : outcome (requiredBody .condition .origin ((Cursor.start dangling).advance 6)) =
      .ok ([.raw ⟨"t", 0, 8, 8, 9, dangling.text⟩ [byte 'A']],
        (Cursor.start dangling).advance 10) := by cbv
  have dangles : Dangles ("if you like".toList.map byte) := by
    refine ⟨[byte ' '], "you like".toList.map byte, lineBlank_space, List.cons_ne_nil _ _, rfl, ?_⟩
    rintro _ ⟨⟩
    exact ⟨rfl, by decide⟩
  have unopened : ¬ AfterElse OpensBranch ((Cursor.start dangling).advance 10).rest :=
    AfterElse.not_opens ⟨[byte ' '], [byte ' '], _, lineBlank_space, lineBlank_space, rfl, dangles⟩
  have conditional : Conditional (Cursor.start dangling) _ _ [] _ := .opening rfl condition body
  have same := claimed _ _ _ _ _ _ conditional unopened none
  obtain ⟨source, fails⟩ := branchesFrom_fault
    (show (((Cursor.start dangling).advance 10).advance 6).rest = ifWord ++ _ from rfl) (by decide)
  rw [conditional.outcome_nodes_branch none lineBlank_space lineBlank_space rfl
    (branchOpens_of_dangles dangles), show ([byte ' '] ++ elseWord ++ [byte ' ']).length = 6 from
    rfl, fails, outcome_nodes_text (by decide) (by decide)] at same
  have clash : (.error _ : Except Error (List Node × Cursor dangling)) = .ok _ := same
  cases clash

end Law

end Stencil.Grammar.Kit
