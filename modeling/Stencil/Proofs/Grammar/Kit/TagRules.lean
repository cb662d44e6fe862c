import Stencil.Proofs.Grammar.Kit.Follows
import Stencil.Proofs.Grammar.Kit.Operands

/-! # The rules of kit tags

One lemma for each kind of tag and for what may follow it. As with expressions a lemma asks for
what the rule looks at and for what its parts read.
-/

namespace Stencil.Grammar.Kit

variable {buffer : Buffer} {c : Cursor buffer} {first second third rest : List UInt8}

/-! ## Bodies -/

/-- A body is read behind spaces and tabs, from brace to brace. -/
theorem reads_body {gap : List UInt8} (blank : LineBlank gap) {block : List Node}
    (there : c.rest = gap ++ byte '\x7b' :: first)
    (inside : ∀ start (c' : Cursor buffer), c'.rest = first →
      Reads (nodes (some start) c') fun values next =>
        Node.bareAll values = block ∧ next.rest = rest) :
    Reads (body c) fun values next => Node.bareAll values = block ∧ next.rest = rest := by
  have opened : (run Text.isLineBlank c).next.rest = byte '\x7b' :: first := by
    change (c.skip Text.isLineBlank).rest = _
    rw [Cursor.rest_skip, there, List.dropWhile_append_of_pos blank]
    rfl
  rw [body]
  dsimp only
  refine (reads_expect opened).bind ?_
  rintro ⟨_, next, below⟩ after
  refine (inside _ next after).bind ?_
  rintro ⟨values, last, bound⟩ holds
  exact .of_ok holds

theorem afterLineBlanks_append {gap : List UInt8} (blank : LineBlank gap) (rest : List UInt8) :
    afterLineBlanks (gap ++ rest) = afterLineBlanks rest := List.dropWhile_append_of_pos blank

theorem bodyAhead_braces {gap : List UInt8} (blank : LineBlank gap) (inner : List UInt8) :
    bodyAhead (gap ++ byte '\x7b' :: inner) = true := by
  rw [bodyAhead, afterLineBlanks_append blank]
  rfl

theorem reads_requiredBody {construct : Construct} {start : Position}
    (ahead : bodyAhead c.rest = true) {Q : List Node → Cursor buffer → Prop}
    (read : Reads (body c) Q) : Reads (requiredBody construct start c) Q := by
  rw [requiredBody, if_pos ahead]
  exact read

/-! ## Named tags -/

/-- The name behind a hash is read up to its parenthesis. -/
theorem run_name (left : c.rest ≠ []) {name : List UInt8}
    (there : c.rest = byte '#' :: (name ++ byte '(' :: rest))
    (opens : name.head?.any isLetter = true) (inside : ∀ b ∈ name, isNameByte b = true) :
    (pop c left).next.rest.head? ≠ some (byte '(') ∧
      (run isNameByte (pop c left).next).value = name ∧
        (run isNameByte (pop c left).next).next.rest = byte '(' :: rest := by
  have hash : (pop c left).next.rest = name ++ byte '(' :: rest := by
    change (c.advance 1).rest = _
    rw [Cursor.rest_advance, there]
    rfl
  refine ⟨?_, ?_, ?_⟩
  · cases name with
    | nil => contradiction
    | cons b name =>
      rw [hash, List.cons_append, List.head?_cons]
      rintro ⟨⟩
      have letter : isLetter (byte '(') = true := opens
      exact absurd letter (by decide)
  · change (pop c left).next.rest.takeWhile isNameByte = name
    rw [hash]
    exact takeWhile_append inside (by rintro _ ⟨⟩; decide)
  · change ((pop c left).next.skip isNameByte).rest = _
    rw [Cursor.rest_skip, hash, List.dropWhile_append_of_pos inside]
    rfl

/-- A conditional is read as its condition, its body and its branches. -/
theorem reads_tag_conditional (left : c.rest ≠ []) {condition : Node} {block : List Node}
    {others : List (Node × List Node)}
    (there : c.rest = byte '#' :: (ifWord ++ byte '(' :: first))
    (argument : ∀ start (c' : Cursor buffer), c'.rest = byte '(' :: first →
      Reads (oneArgument .condition start c') fun value next =>
        value.bare = condition ∧ next.rest = second)
    (braces : ∀ start (c' : Cursor buffer), c'.rest = second →
      Reads (requiredBody .condition start c') fun values next =>
        Node.bareAll values = block ∧ next.rest = third)
    (following : ∀ c' : Cursor buffer, c'.rest = third →
      Reads (branches c') fun values next =>
        Node.bareBranches values = others ∧ next.rest = rest) :
    Reads (tag c left) fun node next =>
      node.bare = .conditional nowhere condition block others ∧ next.rest = rest := by
  obtain ⟨named, name, opened⟩ := run_name left there (by decide) (by decide)
  rw [tag]
  dsimp only
  rw [if_neg named, name, if_pos (by decide)]
  refine (argument _ _ opened).bind ?_
  rintro ⟨value, next, below⟩ ⟨sameValue, afterValue⟩
  refine (braces _ next afterValue).bind ?_
  rintro ⟨values, next', below'⟩ ⟨sameBlock, afterBlock⟩
  refine (following next' afterBlock).bind ?_
  rintro ⟨more, last, bound⟩ ⟨sameOthers, rests⟩
  refine .of_ok ⟨?_, rests⟩
  rw [Node.bare, sameValue, sameBlock, sameOthers]

/-- A loop is read from the parenthesis behind its word on. -/
theorem reads_tag_loop (left : c.rest ≠ []) {Q : Node → Cursor buffer → Prop}
    (there : c.rest = byte '#' :: (forWord ++ byte '(' :: first))
    (parts : ∀ start (c' : Cursor buffer), c'.rest = byte '(' :: first →
      Reads (loop start c') Q) : Reads (tag c left) Q := by
  obtain ⟨named, name, opened⟩ := run_name left there (by decide) (by decide)
  rw [tag]
  dsimp only
  rw [if_neg named, name, if_neg (by decide), if_pos (by decide)]
  refine (parts _ _ opened).bind ?_
  rintro ⟨node, next, below⟩ holds
  exact .of_ok holds

theorem reads_tag_embed (left : c.rest ≠ []) {path : Node}
    (there : c.rest = byte '#' :: (embedWord ++ byte '(' :: first))
    (argument : ∀ start (c' : Cursor buffer), c'.rest = byte '(' :: first →
      Reads (oneArgument .embed start c') fun value next => value.bare = path ∧ next.rest = rest) :
    Reads (tag c left) fun node next => node.bare = .embed nowhere path ∧ next.rest = rest := by
  obtain ⟨named, name, opened⟩ := run_name left there (by decide) (by decide)
  rw [tag]
  dsimp only
  rw [if_neg named, name, if_neg (by decide), if_neg (by decide), if_pos (by decide)]
  refine (argument _ _ opened).bind ?_
  rintro ⟨value, next, below⟩ ⟨same, rests⟩
  refine .of_ok ⟨?_, rests⟩
  rw [Node.bare, same]

/-- A call without a body is read where none is ahead. -/
theorem reads_tag_named (left : c.rest ≠ []) (name : TagName) {parameters : List Node}
    (there : c.rest = byte '#' :: (name.bytes ++ byte '(' :: first))
    (inside : ∀ c' : Cursor buffer, c'.rest = byte '(' :: first →
      Reads (arguments c') fun values next =>
        Node.bareAll values = parameters ∧ next.rest = rest)
    (bodiless : bodyAhead rest = false) :
    Reads (tag c left) fun node next =>
      node.bare = .tag nowhere (asciiText name.bytes) parameters none ∧ next.rest = rest := by
  obtain ⟨named, same, opened⟩ := run_name left there name.opens name.inside
  rw [tag]
  dsimp only
  rw [if_neg named, same, if_neg name.notIf, if_neg name.notFor, if_neg name.notEmbed]
  refine (inside _ opened).bind ?_
  rintro ⟨values, next, below⟩ ⟨all, rests⟩
  have ahead : bodyAhead next.rest = false := (congrArg bodyAhead rests).trans bodiless
  dsimp only
  rw [ahead, if_neg Bool.false_ne_true]
  refine .of_ok ⟨?_, rests⟩
  rw [Node.bare, all]

/-- A call is read with the body that is ahead. -/
theorem reads_tag_named_body (left : c.rest ≠ []) (name : TagName) {parameters block : List Node}
    (there : c.rest = byte '#' :: (name.bytes ++ byte '(' :: first))
    (inside : ∀ c' : Cursor buffer, c'.rest = byte '(' :: first →
      Reads (arguments c') fun values next =>
        Node.bareAll values = parameters ∧ next.rest = second)
    (ahead : bodyAhead second = true)
    (braces : ∀ c' : Cursor buffer, c'.rest = second →
      Reads (body c') fun values next => Node.bareAll values = block ∧ next.rest = rest) :
    Reads (tag c left) fun node next =>
      node.bare = .tag nowhere (asciiText name.bytes) parameters (some block) ∧
        next.rest = rest := by
  obtain ⟨named, same, opened⟩ := run_name left there name.opens name.inside
  rw [tag]
  dsimp only
  rw [if_neg named, same, if_neg name.notIf, if_neg name.notFor, if_neg name.notEmbed]
  refine (inside _ opened).bind ?_
  rintro ⟨values, next, below⟩ ⟨all, after⟩
  have ahead' : bodyAhead next.rest = true := (congrArg bodyAhead after).trans ahead
  dsimp only
  rw [if_pos ahead']
  refine (braces next after).bind ?_
  rintro ⟨inner, last, bound⟩ ⟨sameBlock, rests⟩
  refine .of_ok ⟨?_, rests⟩
  rw [Node.bare, all, sameBlock]

/-! ## Further branches -/

theorem LineBlank.blank {gap : List UInt8} (blank : LineBlank gap) : Blank gap := by
  intro b member
  have line := blank b member
  simp only [Text.isLineBlank, Bool.or_eq_true] at line
  rcases line with line | line <;> simp [Text.isAsciiBlank, line]

/-- Behind the `if` of a branch stands a parenthesis, a space or a tab. -/
theorem branchOpens_if {behind : List UInt8} :
    branchOpens (ifWord ++ behind) = behind.head?.any opensCondition := by
  have third : (ifWord ++ behind)[2]? = behind.head? := List.head?_eq_getElem?.symm
  have word : ifWord.isPrefixOf (ifWord ++ behind) = true := rfl
  have other : ((ifWord ++ behind).head? == some (byte '\x7b')) = false := rfl
  rw [branchOpens, third, word, other, Bool.or_false, Bool.true_and]

theorem afterLineBlanks_else {gap : List UInt8} (blank : LineBlank gap) (gap' rest : List UInt8) :
    afterLineBlanks (gap ++ elseWord ++ gap' ++ rest) = elseWord ++ (gap' ++ rest) := by
  rw [List.append_assoc, List.append_assoc, afterLineBlanks_append blank]
  rfl

/-- A branch opens with a byte that is neither space nor tab. -/
theorem afterLineBlanks_of_opens (opens : branchOpens rest = true) :
    afterLineBlanks rest = rest := by
  simp only [branchOpens, Bool.or_eq_true, Bool.and_eq_true, beq_iff_eq] at opens
  rcases opens with ⟨word, -⟩ | brace
  · obtain ⟨behind, rfl⟩ := List.isPrefixOf_iff_prefix.mp word
    rfl
  · obtain ⟨more, rfl⟩ := List.head?_eq_some_iff.mp brace
    rfl

/-- Where a branch follows, the bytes before it are told by what stands behind `else`. -/
theorem branchAhead?_of_opens {gap gap' : List UInt8} (blank : LineBlank gap)
    (blank' : LineBlank gap') (opens : branchOpens rest = true) :
    branchAhead? (gap ++ elseWord ++ gap' ++ rest) = some (gap ++ elseWord ++ gap').length := by
  have written : elseWord.isPrefixOf (elseWord ++ (gap' ++ rest)) = true := rfl
  rw [branchAhead?, afterLineBlanks_else blank]
  dsimp only
  rw [if_pos written, List.drop_left, afterLineBlanks_append blank', afterLineBlanks_of_opens opens,
    if_pos opens, List.length_append, Nat.add_sub_cancel]

theorem reads_branches_none (none : branchAhead? c.rest = none) :
    Reads (branches c) fun values next => values = [] ∧ next.rest = c.rest := by
  rw [branches, none]
  exact .of_ok ⟨rfl, rfl⟩

/-- A last branch is read behind its `else`. -/
theorem reads_branches_otherwise {gap gap' : List UInt8} (blank : LineBlank gap)
    (blank' : LineBlank gap') {block : List Node}
    (there : c.rest = gap ++ elseWord ++ gap' ++ byte '\x7b' :: first)
    (braces : ∀ start (c' : Cursor buffer), c'.rest = byte '\x7b' :: first →
      Reads (requiredBody .otherwise start c') fun values next =>
        Node.bareAll values = block ∧ next.rest = rest) :
    Reads (branches c) fun values next =>
      Node.bareBranches values = [(.literal nowhere (.bool true), block)] ∧ next.rest = rest := by
  have ahead : branchAhead? c.rest = some (gap ++ elseWord ++ gap').length := by
    rw [there]
    exact branchAhead?_of_opens blank blank' rfl
  have behind : (c.advance (gap ++ elseWord ++ gap').length).rest = byte '\x7b' :: first := by
    rw [Cursor.rest_advance, there, List.drop_left]
  have unconditional : ¬ ifWord.isPrefixOf
      (skip (gap ++ elseWord ++ gap').length c).next.rest = true := by
    change ¬ ifWord.isPrefixOf (c.advance (gap ++ elseWord ++ gap').length).rest = true
    rw [behind]
    exact Bool.false_ne_true
  rw [branches, ahead]
  dsimp only
  rw [if_neg unconditional]
  refine (braces _ _ behind).bind ?_
  rintro ⟨values, next, below⟩ ⟨same, rests⟩
  refine .of_ok ⟨?_, rests⟩
  rw [Node.bareBranches, Node.bare, same, Node.bareBranches]

/-- A further branch is read as a condition, a body and the branches behind it. -/
theorem reads_branches_elseIf {gap gap' gap'' : List UInt8} (blank : LineBlank gap)
    (blank' : LineBlank gap') (blank'' : LineBlank gap'') {condition : Node} {block : List Node}
    {others : List (Node × List Node)}
    (there : c.rest = gap ++ elseWord ++ gap' ++ (ifWord ++ (gap'' ++ byte '(' :: first)))
    (argument : ∀ start (c' : Cursor buffer), c'.rest = byte '(' :: first →
      Reads (oneArgument .elseCondition start c') fun value next =>
        value.bare = condition ∧ next.rest = second)
    (braces : ∀ start (c' : Cursor buffer), c'.rest = second →
      Reads (requiredBody .elseCondition start c') fun values next =>
        Node.bareAll values = block ∧ next.rest = third)
    (following : ∀ c' : Cursor buffer, c'.rest = third →
      Reads (branches c') fun values next =>
        Node.bareBranches values = others ∧ next.rest = rest) :
    Reads (branches c) fun values next =>
      Node.bareBranches values = (condition, block) :: others ∧ next.rest = rest := by
  have opens : branchOpens (ifWord ++ (gap'' ++ byte '(' :: first)) = true := by
    rw [branchOpens_if]
    cases gap'' with
    | nil => rfl
    | cons b gap'' => simp [opensCondition, blank'' b List.mem_cons_self]
  have ahead : branchAhead? c.rest = some (gap ++ elseWord ++ gap').length := by
    rw [there]
    exact branchAhead?_of_opens blank blank' opens
  have behind : (c.advance (gap ++ elseWord ++ gap').length).rest =
      ifWord ++ (gap'' ++ byte '(' :: first) := by
    rw [Cursor.rest_advance, there, List.drop_left]
  have conditional : ifWord.isPrefixOf
      (skip (gap ++ elseWord ++ gap').length c).next.rest = true := by
    change ifWord.isPrefixOf (c.advance (gap ++ elseWord ++ gap').length).rest = true
    rw [behind]
    rfl
  have opened : ((c.advance (gap ++ elseWord ++ gap').length).advance
      ifWord.length).skipBlanks.rest = byte '(' :: first := by
    rw [Cursor.rest_skipBlanks, Cursor.rest_advance, behind, List.drop_left,
      afterBlanks_append blank''.blank, afterBlanks_cons _ (by decide)]
  rw [branches, ahead]
  dsimp only
  rw [if_pos conditional]
  refine (argument _ _ opened).bind ?_
  rintro ⟨value, next, below⟩ ⟨sameValue, afterValue⟩
  refine (braces _ next afterValue).bind ?_
  rintro ⟨values, next', below'⟩ ⟨sameBlock, afterBlock⟩
  refine (following next' afterBlock).bind ?_
  rintro ⟨more, last, bound⟩ ⟨sameOthers, rests⟩
  refine .of_ok ⟨?_, rests⟩
  rw [Node.bareBranches, sameValue, sameBlock, sameOthers]

/-! ## Loops -/

theorem not_isNameByte_of_blank {gap : List UInt8} (blank : Blank gap) (some : gap ≠ [])
    (rest : List UInt8) : ∀ b ∈ (gap ++ rest).head?, isNameByte b = false := by
  cases gap with
  | nil => contradiction
  | cons b gap =>
    rintro _ ⟨⟩
    simpa using apart_of_isAsciiBlank (p := fun b => !isNameByte b) (by decide)
      (blank b List.mem_cons_self)

/-- The variable of a loop, up to the word before its data. -/
theorem run_key {gap gap' : List UInt8} (key : Key) (blank : Blank gap) (blank' : Blank gap')
    (some : gap' ≠ []) (there : c.rest = gap ++ key.bytes ++ gap' ++ rest)
    (dark : ∀ b ∈ rest.head?, Text.isAsciiBlank b = false) :
    (run isNameByte c.skipBlanks).value = key.bytes ∧
      (run isNameByte c.skipBlanks).next.skipBlanks.rest = rest := by
  obtain ⟨k, more, parts⟩ := List.exists_cons_of_ne_nil key.nonempty
  have first : c.skipBlanks.rest = key.bytes ++ (gap' ++ rest) := by
    have letter := key.inside k (parts ▸ List.mem_cons_self)
    have visible : Text.isAsciiBlank k = false := by
      cases blank : Text.isAsciiBlank k with
      | false => rfl
      | true =>
        have name := apart_of_isAsciiBlank (p := fun b => !isNameByte b) (by decide) blank
        simp [letter] at name
    rw [Cursor.rest_skipBlanks, there, List.append_assoc, List.append_assoc,
      afterBlanks_append blank, parts]
    exact afterBlanks_cons _ visible
  constructor
  · change c.skipBlanks.rest.takeWhile isNameByte = key.bytes
    rw [first]
    exact takeWhile_append key.inside (not_isNameByte_of_blank blank' some rest)
  · have behind : (c.skipBlanks.skip isNameByte).rest = gap' ++ rest := by
      rw [Cursor.rest_skip, first, List.dropWhile_append_of_pos key.inside]
      have stop := not_isNameByte_of_blank blank' some rest
      cases joined : gap' ++ rest with
      | nil => rfl
      | cons b more => exact List.dropWhile_cons_of_neg (by simp [stop b (by rw [joined]; rfl)])
    change (c.skipBlanks.skip isNameByte).skipBlanks.rest = rest
    rw [Cursor.rest_skipBlanks, behind, afterBlanks_append blank']
    cases rest with
    | nil => rfl
    | cons b rest => exact afterBlanks_cons _ (dark b rfl)

/-- A loop is read as its variable, its source and its body. -/
theorem reads_loop {start : Position} (key : Key) {gap gap' gap'' : List UInt8}
    (blank : Blank gap) (blank' : Blank gap') (some : gap' ≠ []) (blank'' : Blank gap'')
    (some' : gap'' ≠ []) {data : Node} {block : List Node}
    (there : c.rest = byte '(' :: (gap ++ key.bytes ++ gap' ++ (inWord ++ (gap'' ++ first))))
    (source : ∀ c' : Cursor buffer, c'.rest = gap'' ++ first →
      Reads (expression c') fun value next =>
        value.bare = data ∧ afterBlanks next.rest = byte ')' :: second)
    (braces : ∀ start (c' : Cursor buffer), c'.rest = second →
      Reads (requiredBody .loop start c') fun values next =>
        Node.bareAll values = block ∧ next.rest = rest) :
    Reads (loop start c) fun node next =>
      node.bare = .loop nowhere (.literal nowhere (.string (asciiText key.bytes))) data block ∧
        next.rest = rest := by
  rw [loop]
  refine (reads_expect there).bind ?_
  rintro ⟨_, opened, progress⟩ after
  obtain ⟨name, word⟩ := run_key key blank blank' some after (by rintro _ ⟨⟩; decide)
  have named : (run isNameByte opened.skipBlanks).value.isEmpty = false := by
    rw [name, List.isEmpty_eq_false_iff]
    exact key.nonempty
  have spaced : ((run isNameByte opened.skipBlanks).next.skipBlanks.rest[2]?).any
      Text.isAsciiBlank = true := by
    obtain ⟨b, more, rfl⟩ := List.exists_cons_of_ne_nil some'
    rw [word]
    exact blank'' b List.mem_cons_self
  have written : inWord.isPrefixOf
      (run isNameByte opened.skipBlanks).next.skipBlanks.rest = true := by
    rw [word]
    rfl
  have behind : ((run isNameByte opened.skipBlanks).next.skipBlanks.advance inWord.length).rest =
      gap'' ++ first := by
    rw [Cursor.rest_advance, word, List.drop_left]
  change Reads (if (run isNameByte opened.skipBlanks).value.isEmpty = true then _ else
    if (inWord.isPrefixOf (run isNameByte opened.skipBlanks).next.skipBlanks.rest &&
      ((run isNameByte opened.skipBlanks).next.skipBlanks.rest[2]?).any Text.isAsciiBlank) = true
    then _ else _) _
  rw [named, if_neg Bool.false_ne_true, written, spaced, if_pos (Bool.and_self _)]
  refine (source _ behind).bind ?_
  rintro ⟨value, next, below⟩ ⟨sameData, close⟩
  have close' : next.skipBlanks.rest = byte ')' :: second := next.rest_skipBlanks.trans close
  refine (reads_expect close').bind ?_
  rintro ⟨_, next', below'⟩ afterData
  refine (braces _ next' afterData).bind ?_
  rintro ⟨values, last, bound⟩ ⟨sameBlock, rests⟩
  refine .of_ok ⟨?_, rests⟩
  rw [Node.bare, Node.bare, sameData, sameBlock]
  exact congrArg (fun bytes => Node.loop nowhere (.literal nowhere (.string (asciiText bytes))) _ _)
    name

end Stencil.Grammar.Kit
