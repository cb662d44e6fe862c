import Stencil.Proofs.Grammar.Kit.Excerpts

/-! # A part is read as it is read in the whole

Every rule of the kit grammar that stays in a part of a template reads the part in the same way.
A rule that ends with a bracket of its own may go up to the end of the part; the others look at what
is behind them, and must spare the bracket that ends it. For each rule the reading of the whole is
taken apart first, which tells how much of the part is spared at every step. Then the part is
read along.
-/

namespace Stencil.Excerpt

open Grammar Grammar.Kit

variable {part whole : Buffer} {excerpt : Excerpt part whole}

/-! ## Expressions -/

mutual

/-- An expression in the part is read as in the whole if one more byte is spared. -/
theorem expression_echoes {c : Cursor part} {c' : Cursor whole}
    (abreast : excerpt.Abreast c c') :
    excerpt.Echoes 1 excerpt.move (expression c') (expression c) := by
  unfold expression
  exact binary_echoes levels abreast
termination_by c'.remaining * 16 + 10
decreasing_by all_goals (simp only [levels, List.length_cons, List.length_nil]; omega)

theorem binary_echoes {c : Cursor part} {c' : Cursor whole} (loosest : List Level)
    (abreast : excerpt.Abreast c c') :
    excerpt.Echoes 1 excerpt.move (binary loosest c') (binary loosest c) := by
  intro r' read within
  unfold binary at read ⊢
  cases loosest with
  | nil => exact negated_echoes abreast r' read within
  | cons level tighter =>
  dsimp only at read ⊢
  have behind := (blanks c').below
  obtain ⟨⟨left', next', below⟩, operand, read⟩ := exists_of_bind read
  obtain ⟨⟨value', last', beyond⟩, joined, read⟩ := exists_of_bind read
  cases read
  dsimp only at joined beyond within
  have first := abreast.blanks (by omega)
  rw [first.position] at joined
  refine (binary_echoes tighter first _ operand (by dsimp only; omega)).bind ?_
  rintro ⟨left, next, _⟩ ⟨place, rfl⟩
  refine (chain_echoes level tighter _ left place _ joined within).bind ?_
  rintro ⟨value, last, _⟩ ⟨place, same⟩
  exact .of_ok ⟨place, same⟩
termination_by c'.remaining * 16 + loosest.length + 3
decreasing_by
  · omega
  all_goals (subst loosest; rw [List.length_cons]; omega)

/-- The operators of a level join the same operands. What stands behind the last of them is looked
at, so one byte has to be spared. -/
theorem chain_echoes {c : Cursor part} {c' : Cursor whole} (level : Level)
    (tighter : List Level) (start : Position) (left : Node) (abreast : excerpt.Abreast c c') :
    excerpt.Echoes 1 excerpt.move
      (chain level tighter (excerpt.start.after start) (excerpt.move left) c')
      (chain level tighter start left c) := by
  intro r' read within
  unfold chain at read ⊢
  dsimp only at read ⊢
  have behind := (blanks c').below
  split at read
  · rename_i ahead
    cases read
    dsimp only at within
    -- no operator was ahead in the whole, and at the end of the part there could be one behind it
    have first := abreast.blanks (by omega)
    rw [first.rest, (first.inside within).operatorAhead?_append] at ahead
    rw [ahead]
    exact .of_ok ⟨first, rfl⟩
  · rename_i op ahead
    have after := (skip op.token.length (blanks c').next).below
    obtain ⟨⟨right', next', below⟩, operand, read⟩ := exists_of_bind read
    obtain ⟨⟨value', last', beyond⟩, joined, read⟩ := exists_of_bind read
    cases read
    dsimp only at joined beyond within
    have first := abreast.blanks (by omega)
    rw [first.rest, (first.inside (by omega)).operatorAhead?_append] at ahead
    rw [ahead]
    refine (binary_echoes tighter (first.bytes (by omega)) _ operand
      (by dsimp only; omega)).bind ?_
    rintro ⟨right, next, _⟩ ⟨place, rfl⟩
    rw [place.source] at joined
    refine (chain_echoes level tighter start (.infixOp (next.source start) op left right) place _
      joined within).bind ?_
    rintro ⟨value, last, _⟩ ⟨place, same⟩
    exact .of_ok ⟨place, same⟩
termination_by c'.remaining * 16 + tighter.length + 4
decreasing_by all_goals omega

theorem negated_echoes {c : Cursor part} {c' : Cursor whole} (abreast : excerpt.Abreast c c') :
    excerpt.Echoes 1 excerpt.move (negated c') (negated c) := by
  intro r' read within
  unfold negated at read ⊢
  dsimp only at read ⊢
  have behind := (blanks c').below
  by_cases ahead : negationAhead (blanks c').next.rest = true
  · rw [dif_pos ahead] at read
    have left' : (blanks c').next.rest ≠ [] := by
      intro empty
      simp [negationAhead, empty] at ahead
    have after := (pop (blanks c').next left').below
    obtain ⟨⟨operand', next', below⟩, operand, read⟩ := exists_of_bind read
    cases read
    dsimp only at below within
    have first := abreast.blanks (by omega)
    have ahead' := ahead
    rw [first.rest, (first.inside (by omega)).negationAhead_append] at ahead'
    rw [dif_pos ahead']
    refine (negated_echoes (first.pop (by omega)) _ operand within).bind ?_
    rintro ⟨operand, next, _⟩ ⟨place, rfl⟩
    exact .of_ok ⟨place, congrArg (Node.negation · _) (first.stretch place)⟩
  · rw [dif_neg ahead] at read
    obtain ⟨⟨value', next', below⟩, only, read⟩ := exists_of_bind read
    cases read
    dsimp only [Reading.widen] at within
    have first := abreast.blanks (by omega)
    rw [first.rest, (first.inside (by omega)).negationAhead_append] at ahead
    rw [dif_neg ahead]
    refine (atom_echoes first _ only within).bind ?_
    rintro ⟨value, next, _⟩ ⟨place, same⟩
    exact .of_ok ⟨place, same⟩
termination_by c'.remaining * 16 + 2
decreasing_by all_goals omega

theorem atom_echoes {c : Cursor part} {c' : Cursor whole} (abreast : excerpt.Abreast c c') :
    excerpt.Echoes 1 excerpt.move (atom c') (atom c) := by
  intro r' read within
  have shut := abreast.inside (Nat.lt_trans within r'.below)
  have left := shut.ne_nil
  have head := shut.head?_append excerpt.behind
  have number := shut.numberAhead_append excerpt.behind
  rw [← abreast.rest] at head number
  unfold atom at read ⊢
  rw [dif_neg left]
  split at read
  case isTrue => cases read
  case isFalse left' =>
  rw [head, number] at read
  split at read
  case isTrue group =>
    rw [if_pos group]
    dsimp only at read ⊢
    have after := (pop c' left').below
    obtain ⟨⟨value', next', below⟩, inner, read⟩ := exists_of_bind read
    have behind := (blanks next').below
    obtain ⟨⟨_, last', beyond⟩, close, read⟩ := exists_of_bind read
    cases read
    dsimp only at beyond within
    refine (expression_echoes (abreast.pop (by omega)) _ inner (by dsimp only; omega)).bind ?_
    rintro ⟨value, next, _⟩ ⟨place, rfl⟩
    refine (expect_echoes (place.blanks (by dsimp only; omega)) _ _ _ close
      (Nat.le_of_succ_le within)).bind ?_
    rintro ⟨_, last, _⟩ ⟨place, -⟩
    exact .of_ok ⟨place, rfl⟩
  case isFalse group =>
  rw [if_neg group]
  split at read
  case isTrue quote =>
    rw [if_pos quote]
    exact string_echoes abreast left' left r' read (Nat.le_of_succ_le within)
  case isFalse quote =>
  rw [if_neg quote]
  split at read
  case isTrue digits =>
    rw [if_pos digits]
    exact number_echoes abreast left' left r' read within
  case isFalse digits =>
  rw [if_neg digits]
  split at read
  case isTrue letter =>
    rw [if_pos letter]
    exact word_echoes abreast left' left r' read within
  case isFalse => cases read
termination_by c'.remaining * 16 + 1
decreasing_by all_goals omega

theorem word_echoes {c : Cursor part} {c' : Cursor whole} (abreast : excerpt.Abreast c c')
    (left' : c'.rest ≠ []) (left : c.rest ≠ []) :
    excerpt.Echoes 1 excerpt.move (word c' left') (word c left) := by
  intro r' read within
  unfold word at read ⊢
  dsimp only at read ⊢
  have kept := wordBytes_abreast abreast left' left
  have named := (wordBytes c' left').below
  split at read
  · rename_i call
    obtain ⟨⟨values', last', beyond⟩, given, read⟩ := exists_of_bind read
    cases read
    dsimp only at beyond within
    obtain ⟨place, same⟩ := kept (by omega)
    rw [same, place.rest, (place.inside (by omega)).head?_append] at call
    rw [if_pos call]
    refine (arguments_echoes place _ given (by dsimp only; omega)).bind ?_
    rintro ⟨values, last, _⟩ ⟨later, rfl⟩
    refine .of_ok ⟨later, ?_⟩
    dsimp only
    rw [abreast.stretch later, same]
    rfl
  · rename_i call
    cases read
    dsimp only at within
    obtain ⟨place, same⟩ := kept (by omega)
    rw [same, place.rest, (place.inside within).head?_append] at call
    rw [if_neg call]
    refine .of_ok ⟨place, ?_⟩
    dsimp only
    rw [abreast.stretch place, same, wordNode_move]
termination_by c'.remaining * 16
decreasing_by all_goals omega

/-- Arguments end with a bracket of their own, so they may go up to the end of the part. -/
theorem arguments_echoes {c : Cursor part} {c' : Cursor whole} (abreast : excerpt.Abreast c c') :
    excerpt.Echoes 0 excerpt.moveAll (arguments c') (arguments c) := by
  intro r' read within
  unfold arguments at read ⊢
  obtain ⟨⟨_, opened', progress⟩, open', read⟩ := exists_of_bind read
  dsimp only at read ⊢
  have behind := (blanks opened').below
  split at read
  · rename_i close
    cases read
    dsimp only at within
    have after := skip_one_lt close
    refine (expect_echoes abreast _ _ _ open' (by dsimp only; omega)).bind ?_
    rintro ⟨_, opened, _⟩ ⟨place, -⟩
    have first := place.blanks (by dsimp only; omega)
    dsimp only at first ⊢
    rw [first.rest, (first.inside (by omega)).head?_append] at close
    rw [if_pos close]
    exact .of_ok ⟨first.bytes within, rfl⟩
  · rename_i close
    obtain ⟨⟨values', next', below⟩, list, read⟩ := exists_of_bind read
    cases read
    dsimp only at below within
    refine (expect_echoes abreast _ _ _ open' (by dsimp only; omega)).bind ?_
    rintro ⟨_, opened, _⟩ ⟨place, -⟩
    have first := place.blanks (by dsimp only; omega)
    dsimp only at first
    rw [first.rest, (first.inside (by omega)).head?_append] at close
    dsimp only
    rw [if_neg close]
    refine (argumentList_echoes _ first _ list (by dsimp only; omega)).bind ?_
    rintro ⟨values, next, _⟩ ⟨place, same⟩
    exact .of_ok ⟨place, same⟩
termination_by c'.remaining * 16
decreasing_by all_goals omega

theorem argumentList_echoes {c : Cursor part} {c' : Cursor whole} (start : Position)
    {start' : Position} (abreast : excerpt.Abreast c c') :
    excerpt.Echoes 0 excerpt.moveAll (argumentList start' c') (argumentList start c) := by
  intro r' read within
  unfold argumentList at read ⊢
  obtain ⟨⟨value', next', below⟩, first, read⟩ := exists_of_bind read
  dsimp only at read
  have behind := (blanks next').below
  split at read
  · cases read
  rename_i b head
  have after := skip_one_lt head
  split at read
  · rename_i comma
    obtain ⟨⟨values', last', beyond⟩, others, read⟩ := exists_of_bind read
    cases read
    dsimp only at beyond within
    refine (expression_echoes abreast _ first (by dsimp only; omega)).bind ?_
    rintro ⟨value, next, _⟩ ⟨place, rfl⟩
    have last := place.blanks (by dsimp only; omega)
    dsimp only at last ⊢
    rw [last.rest, (last.inside (by omega)).head?_append] at head
    simp only [head]
    rw [if_pos comma]
    refine (argumentList_echoes _ (last.bytes (by omega)) _ others within).bind ?_
    rintro ⟨values, end_, _⟩ ⟨place, rfl⟩
    exact .of_ok ⟨place, rfl⟩
  split at read
  · rename_i comma close
    cases read
    dsimp only at within
    refine (expression_echoes abreast _ first (by dsimp only; omega)).bind ?_
    rintro ⟨value, next, _⟩ ⟨place, rfl⟩
    have last := place.blanks (by dsimp only; omega)
    dsimp only at last ⊢
    rw [last.rest, (last.inside (by omega)).head?_append] at head
    simp only [head]
    rw [if_neg comma, if_pos close]
    exact .of_ok ⟨last.bytes within, rfl⟩
  · cases read
termination_by c'.remaining * 16 + 11
decreasing_by all_goals omega

end

theorem oneArgument_echoes {c : Cursor part} {c' : Cursor whole} (construct : Construct)
    (start : Position) {start' : Position} (abreast : excerpt.Abreast c c') :
    excerpt.Echoes 0 excerpt.move (oneArgument construct start' c')
      (oneArgument construct start c) := by
  intro r' read within
  unfold oneArgument at read ⊢
  obtain ⟨⟨values', next', below⟩, given, read⟩ := exists_of_bind read
  dsimp only at read
  split at read
  · rename_i value'
    cases read
    dsimp only at within
    refine (arguments_echoes abreast _ given within).bind ?_
    rintro ⟨values, next, _⟩ ⟨place, same⟩
    dsimp only at place same ⊢
    obtain _ | ⟨value, _ | _⟩ := values
    · cases same
    · exact .of_ok ⟨place, (List.cons.inj same).1⟩
    · cases same
  · cases read

/-! ## Nodes -/

/-- A printing tag, which has no name. -/
theorem print_echoes {c : Cursor part} {c' : Cursor whole} (abreast : excerpt.Abreast c c')
    (left' : c'.rest ≠ []) (left : c.rest ≠ [])
    (print : (pop c' left').next.rest.head? = some (byte '(')) :
    excerpt.Echoes 0 excerpt.move (tag c' left') (tag c left) := by
  intro r' read within
  unfold tag at read ⊢
  dsimp only at read ⊢
  rw [if_pos print] at read
  obtain ⟨⟨value', next', below⟩, argument, read⟩ := exists_of_bind read
  cases read
  dsimp only at within
  have hash : excerpt.Abreast (pop c left).next (pop c' left').next := abreast.pop (by omega)
  rw [hash.rest, (hash.inside (by omega)).head?_append] at print
  rw [if_pos print]
  refine (oneArgument_echoes _ _ hash _ argument within).bind ?_
  rintro ⟨value, next, _⟩ ⟨place, rfl⟩
  refine .of_ok ⟨place, ?_⟩
  dsimp only
  rw [abreast.stretch place]
  rfl

/-- A tag that embeds a template. -/
theorem embed_echoes {c : Cursor part} {c' : Cursor whole} (abreast : excerpt.Abreast c c')
    (left' : c'.rest ≠ []) (left : c.rest ≠ [])
    (print : ¬ (pop c' left').next.rest.head? = some (byte '('))
    (name : asciiText (run isNameByte (pop c' left').next).value = "embed") :
    excerpt.Echoes 0 excerpt.move (tag c' left') (tag c left) := by
  intro r' read within
  unfold tag at read ⊢
  dsimp only at read ⊢
  rw [if_neg print, if_neg (by rw [name]; decide), if_neg (by rw [name]; decide), if_pos name]
    at read
  obtain ⟨⟨path', next', below⟩, argument, read⟩ := exists_of_bind read
  cases read
  dsimp only at within
  obtain ⟨print, named, same⟩ := abreast.tagName left print (by omega)
  rw [if_neg print, ← same, if_neg (by rw [name]; decide), if_neg (by rw [name]; decide),
    if_pos name]
  refine (oneArgument_echoes _ _ named _ argument within).bind ?_
  rintro ⟨path, next, _⟩ ⟨place, rfl⟩
  refine .of_ok ⟨place, ?_⟩
  dsimp only
  rw [abreast.stretch place]
  rfl

mutual

/-- The nodes of a body are read alike up to the brace that closes it. -/
theorem nodes_echoes {c : Cursor part} {c' : Cursor whole} (start : Position) {start' : Position}
    (abreast : excerpt.Abreast c c') : excerpt.Echoes 0 excerpt.moveAll
      (nodes (some start') c') (nodes (some start) c) := by
  intro r' read within
  unfold nodes at read ⊢
  split at read
  · cases read
  rename_i left'
  split at read
  · rename_i close
    cases read
    dsimp only [Reading.widen, Reading.map] at within
    have shut := abreast.inside (Nat.lt_of_le_of_lt within (pop c' left').below)
    rw [abreast.rest, shut.head?_append] at close
    rw [dif_neg shut.ne_nil, if_pos (show ((some start).isSome && _) = true from close)]
    exact .of_ok ⟨abreast.advance within, rfl⟩
  · rename_i goesOn
    obtain ⟨⟨node', next', below⟩, first, read⟩ := exists_of_bind read
    obtain ⟨⟨others', last', beyond⟩, following, read⟩ := exists_of_bind read
    cases read
    dsimp only [Reading.widen, Reading.map] at beyond within
    have shut := abreast.inside (by omega)
    rw [abreast.rest, shut.head?_append] at goesOn
    rw [dif_neg shut.ne_nil, if_neg (show ¬((some start).isSome && _) = true from goesOn)]
    refine (unit_echoes true abreast left' shut.ne_nil _ first (by dsimp only; omega)).bind ?_
    rintro ⟨node, next, _⟩ ⟨place, rfl⟩
    refine (nodes_echoes start place _ following within).bind ?_
    rintro ⟨others, last, _⟩ ⟨place, rfl⟩
    exact .of_ok ⟨place, rfl⟩
termination_by c'.remaining * 16 + 12
decreasing_by all_goals omega

theorem unit_echoes {c : Cursor part} {c' : Cursor whole} (inBody : Bool)
    (abreast : excerpt.Abreast c c') (left' : c'.rest ≠ []) (left : c.rest ≠ []) :
    excerpt.Echoes 0 excerpt.move (unit inBody c' left') (unit inBody c left) := by
  have shut := abreast.shut left
  unfold unit
  rw [abreast.rest, shut.escapeAhead_append, shut.tagAhead_append]
  split
  · exact escaped_echoes abreast left' left
  split
  · exact tag_echoes abreast left' left
  · exact rawText_echoes abreast inBody left' left
termination_by c'.remaining * 16 + 11
decreasing_by all_goals omega

/-- Tags of each kind are read alike: those that print, conditionals, loops, those that embed, and
calls. -/
theorem tag_echoes {c : Cursor part} {c' : Cursor whole} (abreast : excerpt.Abreast c c')
    (left' : c'.rest ≠ []) (left : c.rest ≠ []) :
    excerpt.Echoes 0 excerpt.move (tag c' left') (tag c left) := by
  by_cases print : (pop c' left').next.rest.head? = some (byte '(')
  · exact print_echoes abreast left' left print
  by_cases conditional : asciiText (run isNameByte (pop c' left').next).value = "if"
  · exact conditional_echoes abreast left' left print conditional
  by_cases loops : asciiText (run isNameByte (pop c' left').next).value = "for"
  · exact loopTag_echoes abreast left' left print loops
  by_cases embeds : asciiText (run isNameByte (pop c' left').next).value = "embed"
  · exact embed_echoes abreast left' left print embeds
  · exact call_echoes abreast left' left print ⟨conditional, loops, embeds⟩
termination_by c'.remaining * 16 + 10
decreasing_by all_goals omega

/-- A conditional with all of its branches. -/
theorem conditional_echoes {c : Cursor part} {c' : Cursor whole} (abreast : excerpt.Abreast c c')
    (left' : c'.rest ≠ []) (left : c.rest ≠ [])
    (print : ¬ (pop c' left').next.rest.head? = some (byte '('))
    (name : asciiText (run isNameByte (pop c' left').next).value = "if") :
    excerpt.Echoes 0 excerpt.move (tag c' left') (tag c left) := by
  intro r' read within
  unfold tag at read ⊢
  dsimp only at read ⊢
  rw [if_neg print, if_pos name] at read
  have progress := (pop c' left').below
  have after := (run isNameByte (pop c' left').next).below
  obtain ⟨⟨condition', next', below⟩, argument, read⟩ := exists_of_bind read
  obtain ⟨⟨block', last', beyond⟩, braces, read⟩ := exists_of_bind read
  obtain ⟨⟨others', end', bound⟩, following, read⟩ := exists_of_bind read
  cases read
  dsimp only at within
  have middle : last'.remaining < next'.remaining := beyond
  have outer : end'.remaining < last'.remaining + 1 := bound
  obtain ⟨print, named, same⟩ := abreast.tagName left print (by omega)
  rw [if_neg print, ← same, if_pos name]
  refine (oneArgument_echoes _ _ named _ argument (by dsimp only; omega)).bind ?_
  rintro ⟨condition, next, _⟩ ⟨place, rfl⟩
  refine (requiredBody_echoes _ _ place _ braces (by dsimp only; omega)).bind ?_
  rintro ⟨block, last, _⟩ ⟨place, rfl⟩
  refine (branches_echoes place _ following within).bind ?_
  rintro ⟨others, end_, _⟩ ⟨place, rfl⟩
  refine .of_ok ⟨place, ?_⟩
  dsimp only
  rw [abreast.stretch place]
  rfl
termination_by c'.remaining * 16 + 9
decreasing_by all_goals omega

/-- A loop, from its word on. -/
theorem loopTag_echoes {c : Cursor part} {c' : Cursor whole} (abreast : excerpt.Abreast c c')
    (left' : c'.rest ≠ []) (left : c.rest ≠ [])
    (print : ¬ (pop c' left').next.rest.head? = some (byte '('))
    (name : asciiText (run isNameByte (pop c' left').next).value = "for") :
    excerpt.Echoes 0 excerpt.move (tag c' left') (tag c left) := by
  intro r' read within
  unfold tag at read ⊢
  dsimp only at read ⊢
  rw [if_neg print, if_neg (by rw [name]; decide), if_pos name] at read
  have progress := (pop c' left').below
  have after := (run isNameByte (pop c' left').next).below
  obtain ⟨⟨node', next', below⟩, parts, read⟩ := exists_of_bind read
  cases read
  dsimp only at within
  obtain ⟨print, named, same⟩ := abreast.tagName left print (by omega)
  rw [if_neg print, ← same, if_neg (by rw [name]; decide), if_pos name]
  rw [abreast.position] at parts
  refine (loop_echoes _ named _ parts within).bind ?_
  rintro ⟨node, next, _⟩ ⟨place, rfl⟩
  exact .of_ok ⟨place, rfl⟩
termination_by c'.remaining * 16 + 9
decreasing_by all_goals omega

/-- A call, with a body or without one. One without a body may go up to the end of the part, where
the whole may go on with blanks but not with a brace. -/
theorem call_echoes {c : Cursor part} {c' : Cursor whole} (abreast : excerpt.Abreast c c')
    (left' : c'.rest ≠ []) (left : c.rest ≠ [])
    (print : ¬ (pop c' left').next.rest.head? = some (byte '('))
    (name : asciiText (run isNameByte (pop c' left').next).value ≠ "if" ∧
      asciiText (run isNameByte (pop c' left').next).value ≠ "for" ∧
      asciiText (run isNameByte (pop c' left').next).value ≠ "embed") :
    excerpt.Echoes 0 excerpt.move (tag c' left') (tag c left) := by
  intro r' read within
  unfold tag at read ⊢
  dsimp only at read ⊢
  rw [if_neg print, if_neg name.1, if_neg name.2.1, if_neg name.2.2] at read
  have progress := (pop c' left').below
  have after := (run isNameByte (pop c' left').next).below
  obtain ⟨⟨parameters', next', below⟩, given, read⟩ := exists_of_bind read
  have above : r'.next.remaining ≤ next'.remaining := by
    dsimp only at read
    split at read
    · obtain ⟨⟨_, _, beyond⟩, -, read⟩ := exists_of_bind read
      cases read
      exact Nat.le_of_lt beyond
    · cases read
      exact Nat.le_refl _
  obtain ⟨print, named, same⟩ := abreast.tagName left print (by omega)
  rw [if_neg print, ← same, if_neg name.1, if_neg name.2.1, if_neg name.2.2]
  refine (arguments_echoes named _ given (by dsimp only; omega)).bind ?_
  rintro ⟨parameters, next, _⟩ ⟨place, rfl⟩
  dsimp only at read place ⊢
  split at read
  · rename_i ahead
    obtain ⟨⟨block', last', beyond⟩, braces, read⟩ := exists_of_bind read
    cases read
    dsimp only at within
    rw [place.rest, (place.inside (by omega)).bodyAhead_append] at ahead
    rw [if_pos ahead]
    refine (body_echoes place _ braces within).bind ?_
    rintro ⟨block, last, _⟩ ⟨place, rfl⟩
    refine .of_ok ⟨place, ?_⟩
    dsimp only
    rw [abreast.stretch place]
    rfl
  · rename_i bare
    cases read
    -- the part may end here, where the whole goes on without a body
    have bare : ¬ bodyAhead next.rest = true := by
      by_cases atEnd : next.rest = []
      · rw [atEnd]
        decide
      · rwa [place.rest, (place.shut atEnd).bodyAhead_append] at bare
    rw [if_neg bare]
    refine .of_ok ⟨place, ?_⟩
    dsimp only
    rw [abreast.stretch place]
    rfl
termination_by c'.remaining * 16 + 9
decreasing_by all_goals omega

/-- The further branches of a conditional, of which there may be none at the end of the part. -/
theorem branches_echoes {c : Cursor part} {c' : Cursor whole} (abreast : excerpt.Abreast c c') :
    excerpt.Echoes 0 excerpt.moveBranches (branches c') (branches c) := by
  cases ahead : branchAhead? c'.rest with
  | none =>
    intro r' read within
    unfold branches at read ⊢
    rw [ahead] at read
    cases read
    -- the part may end here as well, and what is behind it is no further branch
    have none : branchAhead? c.rest = Option.none := by
      by_cases atEnd : c.rest = []
      · rw [atEnd]
        rfl
      · rwa [abreast.rest, (abreast.shut atEnd).branchAhead?_append] at ahead
    rw [none]
    exact .of_ok ⟨abreast, rfl⟩
  | some length =>
    by_cases conditional : ifWord.isPrefixOf (skip length c').next.rest = true
    · exact elseIf_echoes abreast ahead conditional
    · exact otherwise_echoes abreast ahead conditional
termination_by c'.remaining * 16 + 9
decreasing_by all_goals omega

/-- A further branch with a condition. -/
theorem elseIf_echoes {c : Cursor part} {c' : Cursor whole} (abreast : excerpt.Abreast c c')
    {length : Nat} (ahead : branchAhead? c'.rest = some length)
    (conditional : ifWord.isPrefixOf (skip length c').next.rest = true) :
    excerpt.Echoes 0 excerpt.moveBranches (branches c') (branches c) := by
  intro r' read within
  unfold branches at read ⊢
  rw [ahead] at read
  dsimp only at read
  rw [if_pos conditional] at read
  have outward := (skip length c').below
  have behind := (blanks (skip ifWord.length (skip length c').next).next).below
  have after := (skip ifWord.length (skip length c').next).below
  obtain ⟨⟨condition', next', progress⟩, argument, read⟩ := exists_of_bind read
  obtain ⟨⟨block', last', below⟩, braces, read⟩ := exists_of_bind read
  obtain ⟨⟨others', end', beyond⟩, following, read⟩ := exists_of_bind read
  cases read
  dsimp only at within
  have middle : last'.remaining < next'.remaining := below
  have outer : end'.remaining < last'.remaining + 1 := beyond
  rw [abreast.rest, (abreast.inside (by omega)).branchAhead?_append] at ahead
  have first : excerpt.Abreast (skip length c).next (skip length c').next :=
    abreast.bytes (by omega)
  rw [first.rest, (first.inside (by omega)).isPrefixOf_append Closes.not_mem_ifWord]
    at conditional
  rw [ahead]
  dsimp only
  rw [if_pos conditional]
  refine (oneArgument_echoes _ _ ((first.bytes (by omega)).blanks (by omega)) _ argument
    (by dsimp only; omega)).bind ?_
  rintro ⟨condition, next, _⟩ ⟨place, rfl⟩
  refine (requiredBody_echoes _ _ place _ braces (by dsimp only; omega)).bind ?_
  rintro ⟨block, last, _⟩ ⟨place, rfl⟩
  refine (branches_echoes place _ following within).bind ?_
  rintro ⟨others, end_, _⟩ ⟨place, rfl⟩
  exact .of_ok ⟨place, rfl⟩
termination_by c'.remaining * 16 + 8
decreasing_by all_goals omega

/-- The last branch, which has no condition. -/
theorem otherwise_echoes {c : Cursor part} {c' : Cursor whole} (abreast : excerpt.Abreast c c')
    {length : Nat} (ahead : branchAhead? c'.rest = some length)
    (conditional : ¬ ifWord.isPrefixOf (skip length c').next.rest = true) :
    excerpt.Echoes 0 excerpt.moveBranches (branches c') (branches c) := by
  intro r' read within
  unfold branches at read ⊢
  rw [ahead] at read
  dsimp only at read
  rw [if_neg conditional] at read
  have outward := (skip length c').below
  obtain ⟨⟨block', next', below⟩, braces, read⟩ := exists_of_bind read
  cases read
  dsimp only at within
  rw [abreast.rest, (abreast.inside (by omega)).branchAhead?_append] at ahead
  have first : excerpt.Abreast (skip length c).next (skip length c').next :=
    abreast.bytes (by omega)
  rw [first.rest, (first.inside (by omega)).isPrefixOf_append Closes.not_mem_ifWord]
    at conditional
  rw [ahead]
  dsimp only
  rw [if_neg conditional]
  refine (requiredBody_echoes _ _ first _ braces within).bind ?_
  rintro ⟨block, next, _⟩ ⟨place, rfl⟩
  refine .of_ok ⟨place, ?_⟩
  dsimp only
  rw [first.stretch place]
  rfl
termination_by c'.remaining * 16 + 8
decreasing_by all_goals omega

theorem loop_echoes {c : Cursor part} {c' : Cursor whole} (start : Position)
    (abreast : excerpt.Abreast c c') :
    excerpt.Echoes 0 excerpt.move (loop (excerpt.start.after start) c') (loop start c) := by
  intro r' read within
  unfold loop at read ⊢
  obtain ⟨⟨_, opened', progress⟩, parenthesis, read⟩ := exists_of_bind read
  dsimp only at read
  have blank := (blanks opened').below
  have after := (run isNameByte (blanks opened').next).below
  split at read
  · cases read
  rename_i named
  have behind := (blanks (run isNameByte (blanks opened').next).next).below
  split at read
  · rename_i word
    have source :=
      (skip inWord.length (blanks (run isNameByte (blanks opened').next).next).next).below
    obtain ⟨⟨data', next', below⟩, ranged, read⟩ := exists_of_bind read
    dsimp only at read
    have blank' := (blanks next').below
    obtain ⟨⟨_, last', closing⟩, close, read⟩ := exists_of_bind read
    obtain ⟨⟨block', end', bound⟩, braces, read⟩ := exists_of_bind read
    cases read
    dsimp only at within
    have outer : end'.remaining < last'.remaining := bound
    refine (expect_echoes abreast _ _ _ parenthesis (by dsimp only; omega)).bind ?_
    rintro ⟨_, opened, _⟩ ⟨place, -⟩
    dsimp only at place ⊢
    have first := place.blanks (by omega)
    obtain ⟨ended, name⟩ := first.runs Closes.not_isNameByte (by omega)
    have gap := ended.blanks (by omega)
    rw [gap.rest, (gap.inside (by omega)).sourceAhead_append] at word
    rw [name] at named
    rw [if_neg named, if_pos word]
    refine (expression_echoes (gap.bytes (by omega)) _ ranged (by dsimp only; omega)).bind ?_
    rintro ⟨data, next, _⟩ ⟨place, rfl⟩
    dsimp only
    refine (expect_echoes (place.blanks (by dsimp only; omega)) _ _ _ close
      (by dsimp only; omega)).bind ?_
    rintro ⟨_, last, _⟩ ⟨place, -⟩
    refine (requiredBody_echoes _ _ place _ braces within).bind ?_
    rintro ⟨block, end_, _⟩ ⟨place, rfl⟩
    refine .of_ok ⟨place, ?_⟩
    dsimp only
    rw [place.source, name, first.stretch ended]
    rfl
  · cases read
termination_by c'.remaining * 16 + 12
decreasing_by all_goals omega

/-- A body ends with a brace of its own, so it may go up to the end of the part. -/
theorem body_echoes {c : Cursor part} {c' : Cursor whole} (abreast : excerpt.Abreast c c') :
    excerpt.Echoes 0 excerpt.moveAll (body c') (body c) := by
  intro r' read within
  unfold body at read ⊢
  dsimp only at read ⊢
  have blank := (run Text.isLineBlank c').below
  obtain ⟨⟨_, opened', progress⟩, brace, read⟩ := exists_of_bind read
  obtain ⟨⟨block', next', below⟩, inner, read⟩ := exists_of_bind read
  cases read
  dsimp only at below within
  have first := (abreast.runs Closes.not_isLineBlank (by omega)).1
  refine (expect_echoes first _ _ _ brace (by dsimp only; omega)).bind ?_
  rintro ⟨_, opened, _⟩ ⟨place, -⟩
  refine (nodes_echoes _ place _ inner within).bind ?_
  rintro ⟨block, next, _⟩ ⟨place, rfl⟩
  exact .of_ok ⟨place, rfl⟩
termination_by c'.remaining * 16
decreasing_by all_goals omega

theorem requiredBody_echoes {c : Cursor part} {c' : Cursor whole} (construct : Construct)
    (start : Position) {start' : Position} (abreast : excerpt.Abreast c c') :
    excerpt.Echoes 0 excerpt.moveAll (requiredBody construct start' c')
      (requiredBody construct start c) := by
  intro r' read within
  have shut := abreast.inside (Nat.lt_of_le_of_lt within r'.below)
  unfold requiredBody at read ⊢
  rw [abreast.rest, shut.bodyAhead_append] at read
  split at read
  · rename_i ahead
    rw [if_pos ahead]
    exact body_echoes abreast r' read within
  · cases read
termination_by c'.remaining * 16 + 1
decreasing_by all_goals omega

end

end Stencil.Excerpt
