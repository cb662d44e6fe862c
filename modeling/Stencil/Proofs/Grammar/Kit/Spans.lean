import Mathlib
import Stencil.Proofs.Grammar.Kit.Layout

/-! # Kit templates are covered by their nodes

Whatever a rule of the kit grammar reads lies between the cursor it starts at and the one it ends
at, and where it fails the error points at an exact source. One induction over the rules shows both.
-/

namespace Stencil

open Error (Placed)

variable {buffer : Buffer} {c next : Cursor buffer} {start : Position}

theorem Cursor.Passed.lies (passed : c.Passed start) :
    (c.source start).Lies buffer.text start.offset c.position.offset :=
  ⟨rfl, passed.exact, Nat.le_refl _, Nat.le_refl _⟩

namespace Grammar.Kit

/-- The node lies between two cursors. -/
def Between (c : Cursor buffer) (node : Node) (next : Cursor buffer) : Prop :=
  Laid buffer.text c.position.offset next.position.offset node

/-- The node covers what is between a position and the cursor. -/
structure Spans (start : Position) (node : Node) (next : Cursor buffer) : Prop where
  laid : Laid buffer.text start.offset next.position.offset node
  start : node.source.start = start.offset
  stop : node.source.stop = next.position.offset

/-- The reading of nodes is over: at the end of the text, or behind the brace that ends a body. -/
def Closed (opened : Option Position) (last : Nat) (next : Cursor buffer) : Prop :=
  match opened with
  | none => next.rest = [] ∧ next.position.offset = last
  | some _ => buffer.text[last]? = some (byte '\x7d') ∧ next.position.offset = last + 1

/-- The nodes cover what is between a cursor and the place where their reading is over. -/
structure Fills (opened : Option Position) (c : Cursor buffer) (values : List Node)
    (last : Nat) (next : Cursor buffer) : Prop where
  tiled : Tiled c.position.offset values last
  each : ∀ node ∈ values, Laid buffer.text c.position.offset last node
  closed : Closed opened last next

/-! ## Tokens -/

theorem expect_meets (b : UInt8) (why : ParseFault) (c : Cursor buffer) :
    Meets Placed (fun _ next => c.rest.head? = some b ∧ next = c.advance 1) (expect b why c) := by
  unfold expect
  split
  · rename_i there
    exact .of_ok ⟨there, rfl⟩
  · exact .fault (c.passed_self.later (c.remaining_advance_le 1)) why

theorem number_between (left : c.rest ≠ []) : Meets Placed (Between c) (number c left) := by
  unfold number
  generalize numberLength c.rest = parts
  obtain ⟨length, isFloat⟩ := parts
  have passed := c.passed_self.later (c.remaining_advance_le (max 1 length))
  dsimp only
  split
  · exact .of_ok (.literal passed.lies _)
  · exact .fault passed _

theorem take_of_escapeAhead {rest : List UInt8} (ahead : escapeAhead rest = true) :
    rest.take 2 = escapedHash := by
  match rest, ahead with
  | b :: b' :: more, ahead =>
    simp only [escapeAhead, Bool.and_eq_true, beq_iff_eq] at ahead
    rw [ahead.1, ahead.2]
    rfl

theorem escaped_spans (left : c.rest ≠ []) (ahead : escapeAhead c.rest = true) :
    Spans c.position (escaped c left).value (escaped c left).next := by
  have passed := c.passed_self.later (c.remaining_advance_le 2)
  have laid := Laid.raw passed.lies
  rw [Cursor.bytes_source, take_of_escapeAhead ahead] at laid
  exact ⟨laid, rfl, rfl⟩

theorem rawText_spans (inBody : Bool) (left : c.rest ≠ []) (plain : ¬ escapeAhead c.rest = true) :
    Spans c.position (rawText inBody c left).value (rawText inBody c left).next := by
  have passed := c.passed_self.later
    (c.remaining_advance_le (rawLength inBody c.rest.tail + 1))
  have laid := Laid.raw passed.lies
  have same : rawData (c.rest.take (rawLength inBody c.rest.tail + 1)) =
      c.rest.take (rawLength inBody c.rest.tail + 1) := by
    refine if_neg fun escaped => plain ?_
    have parts := List.take_append_drop (rawLength inBody c.rest.tail + 1) c.rest
    rw [escaped] at parts
    rw [← parts]
    rfl
  rw [Cursor.bytes_source, same] at laid
  exact ⟨laid, rfl, rfl⟩

theorem wordNode_laid {text : List UInt8} {first last : Nat} {source : Source}
    (place : source.Lies text first last) (word : String) :
    Laid text first last (wordNode source word) := by
  unfold wordNode
  split
  · exact .literal place _
  split
  · exact .literal place _
  · exact .identifier place _

section Literals

variable (left : c.rest ≠ [])

/-- What a string literal holds is read from the bytes behind its opening quote. -/
theorem stringLiteral_ok {literal : StringLiteral buffer c.remaining}
    (read : stringLiteral c left = .ok literal) :
    ∃ quoted, readQuoted (buffer.text.drop (c.position.offset + 1)) = .ok quoted ∧
      literal.next.position.offset = c.position.offset + 1 + quoted.length ∧
      literal.template = quoted.template := by
  have some : 1 ≤ c.remaining := List.length_pos_iff.mpr left
  have inner : (c.advance 1).rest = buffer.text.drop (c.position.offset + 1) := by
    rw [(c.advance 1).split_offset.2, Cursor.offset_advance some]
  unfold stringLiteral at read
  dsimp only at read
  split at read
  · cases read
  · rename_i quoted contents
    split at read
    · cases read
    · cases read
      have within := (template_length_lt contents).2
      refine ⟨quoted, inner ▸ contents, ?_, rfl⟩
      rw [Cursor.offset_advance within, Cursor.offset_advance some]

theorem stringLiteral_error {why : Error} (failed : stringLiteral c left = .error why) :
    Placed why := by
  have passed (n : Nat) : ((c.advance 1).advance n).Passed c.position :=
    (c.passed_self.later (c.remaining_advance_le 1)).later ((c.advance 1).remaining_advance_le n)
  unfold stringLiteral at failed
  dsimp only at failed
  split at failed
  · cases failed
    exact ⟨_, _, rfl, (passed _).exact⟩
  · split at failed
    · cases failed
      exact ⟨_, _, rfl, (passed _).exact⟩
    · cases failed

end Literals

/-! ## Rules -/

mutual

/-- Nodes fill what is read, one behind the other. -/
theorem nodes_fill {buffer : Buffer} (opened : Option Position) (c : Cursor buffer)
    (passed : ∀ start ∈ opened, c.Passed start) :
    Meets Placed (fun values next => ∃ last, Fills opened c values last next)
      (nodes opened c) := by
  unfold nodes
  split
  · rename_i atEnd
    cases opened with
    | none => exact .of_ok ⟨_, .nil _, nofun, atEnd, rfl⟩
    | some start => exact .fault (passed start rfl) _
  split
  · rename_i left close
    cases opened with
    | none => cases close
    | some start =>
      have brace : c.rest.head? = some (byte '\x7d') := by simpa using close
      have one : 1 ≤ c.remaining := List.length_pos_iff.mpr left
      exact .of_ok ⟨_, .nil _, nofun, c.getElem?_offset.trans brace, Cursor.offset_advance one⟩
  · rename_i left _
    refine (unit_spans opened.isSome c left).bind ?_
    rintro ⟨node, next, below⟩ ⟨laid, start, stop⟩
    have before : c.position.offset < next.position.offset := by
      have first := c.offset_add_remaining
      have second := next.offset_add_remaining
      omega
    refine (nodes_fill opened next fun start member =>
      (passed start member).later (Nat.le_of_lt below)).bind ?_
    rintro ⟨others, last, bound⟩ ⟨place, tiled, each, closed⟩
    have after := tiled.le
    refine .of_ok ⟨place, .cons start (stop ▸ before) (stop ▸ tiled), ?_, closed⟩
    exact List.forall_mem_cons.mpr ⟨laid.widen (Nat.le_refl _) after,
      fun other member => (each other member).widen (Nat.le_of_lt before) (Nat.le_refl _)⟩
termination_by c.remaining * 16 + 12
decreasing_by all_goals omega

theorem unit_spans {buffer : Buffer} (inBody : Bool) (c : Cursor buffer) (left : c.rest ≠ []) :
    Meets Placed (Spans c.position) (unit inBody c left) := by
  unfold unit
  split
  · rename_i ahead
    exact .of_ok (escaped_spans left ahead)
  split
  · exact tag_spans c left
  · rename_i plain _
    exact .of_ok (rawText_spans inBody left plain)
termination_by c.remaining * 16 + 11
decreasing_by all_goals omega

/-- Tags of each kind span what is read, and what is in them lies in their range. -/
theorem tag_spans {buffer : Buffer} (c : Cursor buffer) (left : c.rest ≠ []) :
    Meets Placed (Spans c.position) (tag c left) := by
  have progress := (pop c left).below
  have after := (run isNameByte (pop c left).next).below
  have hash : (pop c left).next.Passed c.position := c.passed_self.later (by omega)
  have named : (run isNameByte (pop c left).next).next.Passed c.position := hash.later (by omega)
  by_cases print : (pop c left).next.rest.head? = some (byte '(')
  · unfold tag
    dsimp only
    rw [if_pos print]
    refine (oneArgument_between .print c.position _ hash).bind ?_
    rintro ⟨value, next, below⟩ argument
    have closed : next.Passed c.position := hash.later (by omega)
    exact .of_ok ⟨.tag closed.lies "" (List.forall_mem_singleton.mpr
      (argument.widen hash.offset_le (Nat.le_refl _))), rfl, rfl⟩
  by_cases conditional : asciiText (run isNameByte (pop c left).next).value = "if"
  · exact conditional_spans c left print conditional named
  by_cases loops : asciiText (run isNameByte (pop c left).next).value = "for"
  · unfold tag
    dsimp only
    rw [if_neg print, if_neg conditional, if_pos loops]
    refine (loop_spans c.position _ named).bind ?_
    rintro ⟨node, next, below⟩ spans
    exact .of_ok spans
  by_cases embeds : asciiText (run isNameByte (pop c left).next).value = "embed"
  · unfold tag
    dsimp only
    rw [if_neg print, if_neg conditional, if_neg loops, if_pos embeds]
    refine (oneArgument_between .embed c.position _ named).bind ?_
    rintro ⟨path, next, below⟩ argument
    have closed : next.Passed c.position := named.later (by omega)
    exact .of_ok ⟨.embed closed.lies (argument.widen named.offset_le (Nat.le_refl _)), rfl, rfl⟩
  · exact call_spans c left print ⟨conditional, loops, embeds⟩ named
termination_by c.remaining * 16 + 10
decreasing_by all_goals omega

/-- A conditional spans its condition, its body and its further branches. -/
theorem conditional_spans {buffer : Buffer} (c : Cursor buffer) (left : c.rest ≠ [])
    (print : ¬ (pop c left).next.rest.head? = some (byte '('))
    (name : asciiText (run isNameByte (pop c left).next).value = "if")
    (passed : (run isNameByte (pop c left).next).next.Passed c.position) :
    Meets Placed (Spans c.position) (tag c left) := by
  have progress := (pop c left).below
  have after := (run isNameByte (pop c left).next).below
  unfold tag
  dsimp only
  rw [if_neg print, if_pos name]
  refine (oneArgument_between .condition c.position _ passed).bind ?_
  rintro ⟨condition, next, below⟩ tested
  have passed' : next.Passed c.position := passed.later (by omega)
  refine (requiredBody_block .condition c.position next passed').bind ?_
  rintro ⟨block, last, within⟩ filled
  refine (branches_laid last).bind ?_
  rintro ⟨others, end_, beyond⟩ laid
  have closed : end_.Passed c.position := passed'.later (by omega)
  have middle : next.position.offset ≤ end_.position.offset := Cursor.offset_le (by omega)
  have first := filled.widen passed'.offset_le (Cursor.offset_le (Nat.le_of_lt_succ beyond))
  have others' := fun branch member =>
    (laid branch member).widen (passed'.later (Nat.le_of_lt within)).offset_le (Nat.le_refl _)
  exact .of_ok ⟨.conditional closed.lies (tested.widen passed.offset_le middle) first.braced
    first.each (fun branch member => (others' branch member).tested)
    (fun branch member => (others' branch member).block.braced)
    (fun branch member => (others' branch member).block.each), rfl, rfl⟩
termination_by c.remaining * 16 + 9
decreasing_by all_goals omega

/-- A call spans its parameters, and its body if it has one. -/
theorem call_spans {buffer : Buffer} (c : Cursor buffer) (left : c.rest ≠ [])
    (print : ¬ (pop c left).next.rest.head? = some (byte '('))
    (name : asciiText (run isNameByte (pop c left).next).value ≠ "if" ∧
      asciiText (run isNameByte (pop c left).next).value ≠ "for" ∧
      asciiText (run isNameByte (pop c left).next).value ≠ "embed")
    (passed : (run isNameByte (pop c left).next).next.Passed c.position) :
    Meets Placed (Spans c.position) (tag c left) := by
  have progress := (pop c left).below
  have after := (run isNameByte (pop c left).next).below
  unfold tag
  dsimp only
  rw [if_neg print, if_neg name.1, if_neg name.2.1, if_neg name.2.2]
  refine (arguments_between _).bind ?_
  rintro ⟨parameters, next, below⟩ given
  have passed' : next.Passed c.position := passed.later (by omega)
  have wide (last : Cursor buffer) (within : last.remaining ≤ next.remaining) :
      ∀ value ∈ parameters, Laid buffer.text c.position.offset last.position.offset value :=
    fun value member => (given value member).widen passed.offset_le (Cursor.offset_le within)
  dsimp only
  split
  · refine (body_block next).bind ?_
    rintro ⟨block, last, within⟩ filled
    have closed : last.Passed c.position := passed'.later (by omega)
    have block := filled.widen passed'.offset_le (Nat.le_refl _)
    exact .of_ok ⟨.tagWithBody closed.lies _ (wide last (Nat.le_of_lt within)) block.braced
      block.each, rfl, rfl⟩
  · exact .of_ok ⟨.tag passed'.lies _ (wide next (Nat.le_refl _)), rfl, rfl⟩
termination_by c.remaining * 16 + 9
decreasing_by all_goals omega

/-- Every further branch lies in what is read, with a body between braces. -/
theorem branches_laid {buffer : Buffer} (c : Cursor buffer) :
    Meets Placed (fun others next => ∀ branch ∈ others,
      Branch buffer.text c.position.offset next.position.offset branch) (branches c) := by
  unfold branches
  split
  · exact .of_ok nofun
  rename_i length _
  rcases skip length c with ⟨_, first, within⟩
  have outward := Cursor.offset_le (Nat.le_of_lt_succ within)
  have passed := first.passed_self
  dsimp only
  split
  · rcases skip ifWord.length first with ⟨_, word, after⟩
    rcases blanks word with ⟨_, blank, behind⟩
    have passed : blank.Passed first.position := passed.later (by omega)
    dsimp only
    refine (oneArgument_between .elseCondition first.position blank passed).bind ?_
    rintro ⟨condition, next, progress⟩ tested
    have passed' : next.Passed first.position := passed.later (by omega)
    refine (requiredBody_block .elseCondition first.position next passed').bind ?_
    rintro ⟨block, last, below⟩ filled
    have passed'' : last.Passed first.position := passed'.later (by omega)
    refine (branches_laid last).bind ?_
    rintro ⟨others, end_, beyond⟩ laid
    have before (p : Cursor buffer) (later : p.Passed first.position) :
        c.position.offset ≤ p.position.offset := Nat.le_trans outward later.offset_le
    have middle : next.position.offset ≤ end_.position.offset := Cursor.offset_le (by omega)
    refine .of_ok (List.forall_mem_cons.mpr ⟨⟨tested.widen (before _ passed) middle, ?_⟩, ?_⟩)
    · exact filled.widen (before _ passed') (Cursor.offset_le (Nat.le_of_lt_succ beyond))
    · exact fun branch member => (laid branch member).widen (before _ passed'') (Nat.le_refl _)
  · refine (requiredBody_block .otherwise first.position first passed).bind ?_
    rintro ⟨block, next, below⟩ filled
    have closed : next.Passed first.position := passed.later (by omega)
    exact .of_ok (List.forall_mem_singleton.mpr
      ⟨.literal (closed.lies.widen outward (Nat.le_refl _)) _,
        filled.widen outward (Nat.le_refl _)⟩)
termination_by c.remaining * 16 + 9
decreasing_by all_goals omega

theorem loop_spans {buffer : Buffer} (start : Position) (c : Cursor buffer)
    (passed : c.Passed start) : Meets Placed (Spans start) (loop start c) := by
  unfold loop
  refine (expect_meets _ _ c).bind ?_
  rintro ⟨_, opened, progress⟩ -
  dsimp only
  rcases blanks opened with ⟨_, first, within⟩
  have passed : first.Passed start := passed.later (by omega)
  rcases run isNameByte first with ⟨name, last, after⟩
  have named : last.Passed first.position := first.passed_self.later (by omega)
  dsimp only
  split
  · exact .fault named _
  rcases blanks last with ⟨_, word, behind⟩
  dsimp only
  split
  · rcases skip inWord.length word with ⟨_, source, beyond⟩
    have passed' : source.Passed start := passed.later (by omega)
    have inner : last.position.offset ≤ source.position.offset := Cursor.offset_le (by omega)
    dsimp only
    refine (expression_between source).bind ?_
    rintro ⟨data, next, below⟩ ranged
    dsimp only
    rcases blanks next with ⟨_, close, blank⟩
    dsimp only
    refine (expect_meets _ _ close).bind ?_
    rintro ⟨_, block, closing⟩ -
    have passed'' : block.Passed start := passed'.later (by omega)
    have inside : next.position.offset ≤ block.position.offset := Cursor.offset_le (by omega)
    refine (requiredBody_block .loop start block passed'').bind ?_
    rintro ⟨body, end_, ended⟩ filled
    have closed : end_.Passed start := passed''.later (by omega)
    have outer := Cursor.offset_le (Nat.le_of_lt ended)
    have wide := filled.widen passed''.offset_le (Nat.le_refl _)
    have key := (Laid.literal named.lies (.string (asciiText name))).widen passed.offset_le
      (Nat.le_trans (Nat.le_trans inner (Cursor.offset_le (Nat.le_of_lt below)))
        (Nat.le_trans inside outer))
    exact .of_ok ⟨.loop closed.lies key (ranged.widen passed'.offset_le (Nat.le_trans inside outer))
      wide.braced wide.each, rfl, rfl⟩
  · exact .fault word.passed_self _
termination_by c.remaining * 16 + 12
decreasing_by all_goals omega

/-- A body is a block between its braces. -/
theorem body_block {buffer : Buffer} (c : Cursor buffer) :
    Meets Placed (fun block next =>
      Block buffer.text c.position.offset next.position.offset block) (body c) := by
  unfold body
  rcases run Text.isLineBlank c with ⟨_, first, within⟩
  have before := Cursor.offset_le (Nat.le_of_lt_succ within)
  dsimp only
  refine (expect_meets _ _ first).bind ?_
  rintro ⟨_, opened, progress⟩ ⟨brace, rfl⟩
  have one : 1 ≤ first.remaining := by
    cases rest : first.rest with
    | nil => simp [rest] at brace
    | cons b others => simp [Cursor.remaining, rest]
  have inside := Cursor.offset_advance one
  have passed : (first.advance 1).Passed first.position := first.passed_self.later (by omega)
  refine (nodes_fill (some first.position) (first.advance 1) ?_).bind ?_
  · rintro _ ⟨⟩
    exact passed
  rintro ⟨block, next, below⟩ ⟨last, tiled, each, close, stop⟩
  rw [inside] at tiled each
  refine .of_ok ⟨⟨_, last, before, stop ▸ Nat.lt_succ_self last,
    first.getElem?_offset.trans brace, close, tiled⟩, fun node member => ?_⟩
  exact (each node member).widen (Nat.le_succ_of_le before) (stop ▸ Nat.le_succ last)
termination_by c.remaining * 16
decreasing_by all_goals omega

theorem requiredBody_block {buffer : Buffer} (construct : Construct) (start : Position)
    (c : Cursor buffer) (passed : c.Passed start) : Meets Placed (fun block next =>
      Block buffer.text c.position.offset next.position.offset block)
      (requiredBody construct start c) := by
  unfold requiredBody
  split
  · exact body_block c
  · exact .fault passed _
termination_by c.remaining * 16 + 1
decreasing_by all_goals omega

theorem arguments_between {buffer : Buffer} (c : Cursor buffer) : Meets Placed
    (fun values next => ∀ value ∈ values, Between c value next) (arguments c) := by
  unfold arguments
  refine (expect_meets _ _ c).bind ?_
  rintro ⟨_, opened, progress⟩ -
  dsimp only
  rcases blanks opened with ⟨_, first, within⟩
  have passed : first.Passed c.position := c.passed_self.later (by omega)
  dsimp only
  split
  · rcases skip 1 first with ⟨_, next, below⟩
    exact .of_ok nofun
  · refine (argumentList_between c.position first passed).bind ?_
    rintro ⟨values, next, below⟩ each
    exact .of_ok fun value member => (each value member).widen passed.offset_le (Nat.le_refl _)
termination_by c.remaining * 16
decreasing_by all_goals omega

theorem argumentList_between {buffer : Buffer} (start : Position) (c : Cursor buffer)
    (passed : c.Passed start) :
    Meets Placed (fun values next => ∀ value ∈ values, Between c value next)
      (argumentList start c) := by
  unfold argumentList
  refine (expression_between c).bind ?_
  rintro ⟨value, next, below⟩ laid
  dsimp only
  rcases blanks next with ⟨_, last, within⟩
  rcases skip 1 last with ⟨_, after, behind⟩
  have passed : after.Passed start := passed.later (by omega)
  have inside : next.position.offset ≤ after.position.offset := Cursor.offset_le (by omega)
  dsimp only
  split
  · exact .fault passed _
  split
  · refine (argumentList_between start after passed).bind ?_
    rintro ⟨values, end_, ended⟩ each
    have outer := Cursor.offset_le (Nat.le_of_lt ended)
    refine .of_ok (List.forall_mem_cons.mpr
      ⟨laid.widen (Nat.le_refl _) (Nat.le_trans inside outer), fun value member => ?_⟩)
    exact (each value member).widen (Cursor.offset_le (by omega)) (Nat.le_refl _)
  split
  · exact .of_ok (List.forall_mem_singleton.mpr (laid.widen (Nat.le_refl _) inside))
  · exact .fault (last.passed_self.later (by omega)) _
termination_by c.remaining * 16 + 11
decreasing_by all_goals omega

theorem oneArgument_between {buffer : Buffer} (construct : Construct) (start : Position)
    (c : Cursor buffer) (passed : c.Passed start) :
    Meets Placed (Between c) (oneArgument construct start c) := by
  unfold oneArgument
  refine (arguments_between c).bind ?_
  rintro ⟨values, next, below⟩ each
  dsimp only at each ⊢
  split
  · exact .of_ok (each _ (List.mem_singleton_self _))
  · exact .fault (passed.later (Nat.le_of_lt below)) _
termination_by c.remaining * 16 + 1
decreasing_by all_goals omega

/-- An expression lies between the places where its reading begins and ends. -/
theorem expression_between {buffer : Buffer} (c : Cursor buffer) :
    Meets Placed (Between c) (expression c) := by
  unfold expression
  exact binary_between levels c
termination_by c.remaining * 16 + 10
decreasing_by all_goals (simp only [levels, List.length_cons, List.length_nil]; omega)

theorem binary_between {buffer : Buffer} (loosest : List Level) (c : Cursor buffer) :
    Meets Placed (Between c) (binary loosest c) := by
  unfold binary
  split
  · exact negated_between c
  rename_i level tighter
  rcases blanks c with ⟨_, first, within⟩
  dsimp only
  refine (binary_between tighter first).bind ?_
  rintro ⟨left, next, below⟩ laid
  refine (chain_between level tighter first.position left next
    (first.passed_self.later (Nat.le_of_lt below)) laid).bind ?_
  rintro ⟨value, last, beyond⟩ whole
  exact .of_ok (whole.widen (Cursor.offset_le (by omega)) (Nat.le_refl _))
termination_by c.remaining * 16 + loosest.length + 3
decreasing_by all_goals (subst loosest; simp only [List.length_cons, List.length_nil]; omega)

theorem chain_between {buffer : Buffer} (level : Level) (tighter : List Level)
    (start : Position) (left : Node) (c : Cursor buffer) (passed : c.Passed start)
    (laid : Laid buffer.text start.offset c.position.offset left) :
    Meets Placed (fun value next => Laid buffer.text start.offset next.position.offset value)
      (chain level tighter start left c) := by
  unfold chain
  rcases blanks c with ⟨_, first, within⟩
  have before := Cursor.offset_le (Nat.le_of_lt_succ within)
  dsimp only
  split
  · exact .of_ok (laid.widen (Nat.le_refl _) before)
  rename_i op _
  rcases skip op.token.length first with ⟨_, operand, after⟩
  have passed : operand.Passed start := passed.later (by omega)
  dsimp only
  refine (binary_between tighter operand).bind ?_
  rintro ⟨right, next, below⟩ other
  have closed : next.Passed start := passed.later (by omega)
  have goesOn : c.position.offset ≤ next.position.offset := Cursor.offset_le (by omega)
  have one := laid.widen (Nat.le_refl _) goesOn
  refine (chain_between level tighter start _ next closed
    (.infixOp closed.lies op one (other.widen passed.offset_le (Nat.le_refl _)))).bind ?_
  rintro ⟨value, last, beyond⟩ whole
  exact .of_ok whole
termination_by c.remaining * 16 + tighter.length + 4
decreasing_by all_goals omega

theorem negated_between {buffer : Buffer} (c : Cursor buffer) :
    Meets Placed (Between c) (negated c) := by
  unfold negated
  rcases blanks c with ⟨_, first, within⟩
  have before := Cursor.offset_le (Nat.le_of_lt_succ within)
  dsimp only
  split
  · rcases pop first _ with ⟨_, inner, progress⟩
    have passed : inner.Passed first.position := first.passed_self.later (by omega)
    dsimp only
    refine (negated_between inner).bind ?_
    rintro ⟨operand, next, below⟩ laid
    have closed : next.Passed first.position := passed.later (by omega)
    have node := Laid.negation closed.lies (laid.widen passed.offset_le (Nat.le_refl _))
    exact .of_ok (node.widen before (Nat.le_refl _))
  · refine (atom_between first).bind ?_
    rintro ⟨value, next, below⟩ laid
    exact .of_ok (laid.widen before (Nat.le_refl _))
termination_by c.remaining * 16 + 2
decreasing_by all_goals omega

theorem atom_between {buffer : Buffer} (c : Cursor buffer) : Meets Placed (Between c) (atom c) := by
  unfold atom
  split
  · exact .fault c.passed_self _
  rename_i left
  split
  · rcases pop c left with ⟨_, inner, progress⟩
    dsimp only
    refine (expression_between inner).bind ?_
    rintro ⟨value, next, below⟩ laid
    dsimp only
    rcases blanks next with ⟨_, last, within⟩
    dsimp only
    refine (expect_meets _ _ last).bind ?_
    rintro ⟨_, close, closing⟩ -
    have before : c.position.offset ≤ inner.position.offset := Cursor.offset_le (by omega)
    have after : next.position.offset ≤ close.position.offset := Cursor.offset_le (by omega)
    exact .of_ok (laid.widen before after)
  split
  · exact string_between c left
  split
  · exact number_between left
  split
  · exact word_between c left
  · exact .fault c.passed_self _
termination_by c.remaining * 16 + 1
decreasing_by all_goals omega

theorem word_between {buffer : Buffer} (c : Cursor buffer) (left : c.rest ≠ []) :
    Meets Placed (Between c) (word c left) := by
  unfold word
  rcases wordBytes c left with ⟨bytes, named, progress⟩
  have passed : named.Passed c.position := c.passed_self.later (by omega)
  dsimp only
  split
  · refine (arguments_between named).bind ?_
    rintro ⟨parameters, next, below⟩ given
    have closed : next.Passed c.position := passed.later (by omega)
    exact .of_ok (.tag closed.lies _ fun value member =>
      (given value member).widen passed.offset_le (Nat.le_refl _))
  · exact .of_ok (wordNode_laid passed.lies _)
termination_by c.remaining * 16
decreasing_by all_goals omega

theorem string_between {buffer : Buffer} (c : Cursor buffer) (left : c.rest ≠ []) :
    Meets Placed (Between c) (string c left) := by
  unfold string
  cases read : stringLiteral c left with
  | error why => exact stringLiteral_error left read
  | ok literal =>
    obtain ⟨quoted, contents, length, same⟩ := stringLiteral_ok left read
    obtain ⟨text, template, next, below⟩ := literal
    change template = quoted.template at same
    subst same
    have closed : next.Passed c.position := c.passed_self.later (by omega)
    change Meets Placed (Between c) (if _ then _ else _)
    split
    · refine (nodes_fill none (Cursor.start ⟨buffer.file, quoted.template⟩) nofun).bind ?_
      rintro ⟨parts, last, _⟩ ⟨_, tiled, each, atEnd, rfl⟩
      have whole := last.offset_at_end atEnd
      rw [whole] at tiled each
      refine .of_ok ?_
      dsimp only
      split
      · exact .literal closed.lies _
      · exact .interpolated closed.lies contents length tiled each
    · exact .of_ok (.literal closed.lies _)
termination_by c.remaining * 16
decreasing_by all_goals (simp only [Cursor.remaining_start]; omega)

end

/-! ## Templates -/

theorem parse_placed {why : Error} (failed : parse buffer = .error why) : Placed why :=
  (nodes_fill none (Cursor.start buffer) nofun).of_failure failed

/-- The nodes of a template fill its text. -/
theorem parse_fills {nodes : List Node} (parsed : parse buffer = .ok nodes) :
    ∃ next, Fills none (Cursor.start buffer) nodes buffer.text.length next := by
  obtain ⟨next, last, fills⟩ := (nodes_fill none (Cursor.start buffer) nofun).of_value parsed
  obtain ⟨atEnd, rfl⟩ := fills.closed
  exact ⟨next, next.offset_at_end atEnd ▸ fills⟩

/-- The nodes of a template tile it, and each lies in it with everything in it. -/
theorem parse_laid {nodes : List Node} (parsed : parse buffer = .ok nodes) :
    Tiled 0 nodes buffer.text.length ∧
      ∀ node ∈ nodes, Laid buffer.text 0 buffer.text.length node := by
  obtain ⟨next, fills⟩ := parse_fills parsed
  exact ⟨fills.tiled, fills.each⟩

/-- An escaped hash, and a tag with a body on a string that has a tag of its own. -/
private def nested : Buffer := ⟨"t", "\\#\n#b(\"a#(x)\") \x7by\x7d".toList.map byte⟩

private def nestedSource (start stop : Nat) : Source :=
  ⟨"t", 1, start - 3, start, stop, nested.text⟩

private def innerSource (start stop : Nat) : Source :=
  ⟨"t", 0, start, start, stop, "a#(x)".toList.map byte⟩

private def nestedNodes : List Node :=
  [.raw ⟨"t", 0, 0, 0, 2, nested.text⟩ [byte '#'], .raw ⟨"t", 0, 2, 2, 3, nested.text⟩ [byte '\n'],
    .tag (nestedSource 3 18) "b"
      [.interpolated (nestedSource 6 13)
        [.raw (innerSource 0 1) [byte 'a'],
          .tag (innerSource 1 5) "" [.identifier (innerSource 3 4) ⟨[.key "x"]⟩] none]]
      (some [.raw (nestedSource 16 17) [byte 'y']])]

/-- The escaped hash stands for a hash, and the string is filled by nodes of its own. -/
theorem parse_laid_nested : parse nested = .ok nestedNodes ∧ Tiled 0 nestedNodes 18 ∧
    ∀ node ∈ nestedNodes, Laid nested.text 0 18 node := by
  have parsed : parse nested = .ok nestedNodes := by cbv
  exact ⟨parsed, parse_laid parsed⟩

end Grammar.Kit

end Stencil
