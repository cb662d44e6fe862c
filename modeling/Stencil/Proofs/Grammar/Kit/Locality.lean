import Stencil.Proofs.Grammar.Kit.Echoes
import Stencil.Proofs.Grammar.Kit.Spans

/-! # Kit templates are parsed unit by unit

A tag is read up to a bracket, so its bytes alone are read as they are in the template. Raw text
ends in front of what cannot begin in it, and without that it is read to its own end. So a node of a
template is told by its range alone, and what stands around it decides nothing but its place.
-/

namespace Stencil.Grammar.Kit

variable {buffer : Buffer} {c : Cursor buffer}

/-! ## Where tags end -/

/-- The byte in front of the cursor is a bracket that closes. -/
def Behind (next : Cursor buffer) : Prop :=
  ∃ place b, buffer.text[place]? = some b ∧ Closes b ∧ next.position.offset = place + 1

theorem behind_advance {b : UInt8} (there : c.rest.head? = some b) (closes : Closes b) :
    Behind (c.advance 1) := by
  have one : 1 ≤ c.remaining := by
    obtain ⟨more, whole⟩ := List.head?_eq_some_iff.mp there
    rw [Cursor.remaining, whole]
    exact Nat.le_add_left 1 _
  exact ⟨_, b, c.getElem?_offset.trans there, closes, Cursor.offset_advance one⟩

/-- A list of arguments ends behind its parenthesis. -/
theorem argumentList_behind {buffer : Buffer} (start : Position) (c : Cursor buffer) :
    Ensures (argumentList start c) fun _ next => Behind next := by
  unfold argumentList
  refine (Ensures.any _).bind ?_
  rintro ⟨value, next, below⟩ -
  have behind := (blanks next).below
  have after := (skip 1 (blanks next).next).below
  dsimp only
  split
  · exact .of_error _
  rename_i b head
  split
  · refine (argumentList_behind start _).bind ?_
    rintro ⟨values, last, beyond⟩ ended
    exact .of_ok ended
  split
  · rename_i close
    exact .of_ok (behind_advance head (.inl close))
  · exact .of_error _
termination_by c.remaining
decreasing_by omega

theorem arguments_behind (c : Cursor buffer) :
    Ensures (arguments c) fun _ next => Behind next := by
  unfold arguments
  refine (Ensures.any _).bind ?_
  rintro ⟨_, opened, progress⟩ -
  dsimp only
  split
  · rename_i close
    exact .of_ok (behind_advance close (.inl rfl))
  · refine (argumentList_behind _ _).bind ?_
    rintro ⟨values, next, below⟩ ended
    exact .of_ok ended

theorem oneArgument_behind (construct : Construct) (start : Position) (c : Cursor buffer) :
    Ensures (oneArgument construct start c) fun _ next => Behind next := by
  unfold oneArgument
  refine (arguments_behind c).bind ?_
  rintro ⟨values, next, below⟩ ended
  dsimp only
  split
  · exact .of_ok ended
  · exact .of_error _

/-- A body ends behind its brace. -/
theorem body_behind (c : Cursor buffer) : Ensures (body c) fun _ next => Behind next := by
  unfold body
  dsimp only
  refine (expect_meets _ _ _).ensures.bind ?_
  rintro ⟨_, opened, progress⟩ -
  have passed : opened.Passed (run Text.isLineBlank c).next.position :=
    (run Text.isLineBlank c).next.passed_self.later (Nat.le_of_lt progress)
  refine (nodes_fill (some _) opened (by rintro _ ⟨⟩; exact passed)).ensures.bind ?_
  rintro ⟨block, next, below⟩ ⟨last, fills⟩
  exact .of_ok ⟨last, _, fills.closed.1, .inr rfl, fills.closed.2⟩

theorem requiredBody_behind (construct : Construct) (start : Position) (c : Cursor buffer) :
    Ensures (requiredBody construct start c) fun _ next => Behind next := by
  unfold requiredBody
  split
  · exact body_behind c
  · exact .of_error _

/-- Behind a bracket the further branches end behind one, if there are any. -/
theorem branches_behind {buffer : Buffer} {c : Cursor buffer} (ended : Behind c) :
    Ensures (branches c) fun _ next => Behind next := by
  unfold branches
  split
  · exact .of_ok ended
  rename_i length _
  have outward := (skip length c).below
  dsimp only
  split
  · have after := (skip ifWord.length (skip length c).next).below
    have behind := (blanks (skip ifWord.length (skip length c).next).next).below
    refine (Ensures.any _).bind ?_
    rintro ⟨condition, next, progress⟩ -
    refine (requiredBody_behind .elseCondition _ next).bind ?_
    rintro ⟨block, last, below⟩ ended
    have middle : last.remaining < next.remaining := below
    refine (branches_behind ended).bind ?_
    rintro ⟨others, end_, beyond⟩ ended
    exact .of_ok ended
  · refine (requiredBody_behind .otherwise _ _).bind ?_
    rintro ⟨block, next, below⟩ ended
    exact .of_ok ended
termination_by c.remaining
decreasing_by omega

/-- A loop ends behind the brace of its body. -/
theorem loop_behind (start : Position) (c : Cursor buffer) :
    Ensures (loop start c) fun _ next => Behind next := by
  unfold loop
  refine (Ensures.any _).bind ?_
  rintro ⟨_, opened, progress⟩ -
  dsimp only
  split
  · exact .of_error _
  split
  · refine (Ensures.any _).bind ?_
    rintro ⟨data, next, below⟩ -
    refine (Ensures.any _).bind ?_
    rintro ⟨_, close, closing⟩ -
    refine (requiredBody_behind .loop start close).bind ?_
    rintro ⟨block, last, within⟩ ended
    exact .of_ok ended
  · exact .of_error _

/-- A tag is read up to a bracket. -/
theorem tag_behind (left : c.rest ≠ []) : Ensures (tag c left) fun _ next => Behind next := by
  unfold tag
  dsimp only
  split
  case isTrue print =>
    refine (oneArgument_behind _ _ _).bind ?_
    rintro ⟨value, next, below⟩ ended
    exact .of_ok ended
  split
  case isTrue conditional =>
    refine (Ensures.any _).bind ?_
    rintro ⟨condition, next, below⟩ -
    refine (requiredBody_behind _ _ next).bind ?_
    rintro ⟨block, last, within⟩ ended
    refine (branches_behind ended).bind ?_
    rintro ⟨others, end_, beyond⟩ ended
    exact .of_ok ended
  split
  case isTrue loops =>
    refine (loop_behind _ _).bind ?_
    rintro ⟨node, next, below⟩ ended
    exact .of_ok ended
  split
  case isTrue embeds =>
    refine (oneArgument_behind _ _ _).bind ?_
    rintro ⟨path, next, below⟩ ended
    exact .of_ok ended
  case isFalse =>
    refine (arguments_behind _).bind ?_
    rintro ⟨parameters, next, below⟩ ended
    dsimp only
    split
    · refine (body_behind next).bind ?_
      rintro ⟨block, last, within⟩ ended
      exact .of_ok ended
    · exact .of_ok ended

/-! ## Raw text -/

theorem escapeAhead_append_of_ahead {rest : List UInt8} (ahead : escapeAhead rest = true)
    (behind : List UInt8) : escapeAhead (rest ++ behind) = true := by
  match rest, ahead with
  | _ :: _ :: _, ahead => exact ahead

theorem tagAhead_append_of_ahead {rest : List UInt8} (ahead : tagAhead rest = true)
    (behind : List UInt8) : tagAhead (rest ++ behind) = true := by
  match rest, ahead with
  | hash :: b :: more, ahead =>
    simp only [tagAhead, Bool.and_eq_true, Bool.or_eq_true, beq_iff_eq] at ahead
    simp only [List.cons_append, tagAhead, Bool.and_eq_true, Bool.or_eq_true, beq_iff_eq]
    refine ahead.imp_right (Or.imp_right (And.imp_right fun parenthesis => ?_))
    obtain ⟨inner, there⟩ := List.head?_eq_some_iff.mp parenthesis
    rw [List.dropWhile_append, there]
    rfl

/-- Raw text that is cut off where it ends goes on to the end. -/
theorem rawLength_take (rest : List UInt8) :
    rawLength false (rest.take (rawLength false rest)) =
      (rest.take (rawLength false rest)).length := by
  induction rest with
  | nil => rfl
  | cons b rest ih =>
    rw [rawLength]
    split
    · rfl
    · rename_i goesOn
      have inside : ¬ rawEnds false (b :: rest.take (rawLength false rest)) = true := by
        intro ends
        refine goesOn ?_
        simp only [rawEnds, Bool.false_and, Bool.false_or, Bool.or_eq_true] at ends ⊢
        have whole := List.take_append_drop (rawLength false rest) rest
        rw [← whole]
        exact ends.imp (escapeAhead_append_of_ahead · _) (tagAhead_append_of_ahead · _)
      rw [List.take_succ_cons, rawLength, if_neg inside, ih, List.length_cons]

/-! ## Units -/

section Units

variable {next : Cursor buffer}

theorem text_cut (n : Nat) :
    (buffer.cut c.position.offset (c.advance n).position.offset).text = c.rest.take n :=
  c.bytes_source n

theorem text_cut_ne_nil (before : next.remaining < c.remaining) :
    (buffer.cut c.position.offset next.position.offset).text ≠ [] := by
  have first := c.offset_add_remaining
  have last := next.offset_add_remaining
  refine List.ne_nil_of_length_pos ?_
  change 0 < ((buffer.text.take next.position.offset).drop c.position.offset).length
  rw [List.length_drop, List.length_take]
  omega

/-- The text of what ends behind a bracket is shut by it. -/
theorem shut_cut (before : next.remaining < c.remaining) (ended : Behind next) :
    Shut (buffer.cut c.position.offset next.position.offset).text := by
  obtain ⟨place, b, there, closes, behind⟩ := ended
  have first := c.offset_add_remaining
  have last := next.offset_add_remaining
  obtain ⟨within, same⟩ := List.getElem?_eq_some_iff.mp there
  change Shut ((buffer.text.take next.position.offset).drop c.position.offset)
  rw [behind, List.take_succ_eq_append_getElem within, same,
    List.drop_append_of_le_length (by rw [List.length_take]; omega)]
  exact (Shut.last closes).append _

variable (le : c.position.offset ≤ next.position.offset)

include le

theorem start_ofCut : (Excerpt.ofCut buffer le).start = c.position := c.split_offset.1.symm

theorem behind_ofCut : (Excerpt.ofCut buffer le).behind = next.rest := next.split_offset.2.symm

/-- What is left at a cursor is the text that is cut out, and what is behind that. -/
theorem rest_ofCut : c.rest = (buffer.cut c.position.offset next.position.offset).text ++
    (Excerpt.ofCut buffer le).behind := by
  have whole := (Excerpt.ofCut buffer le).text
  rw [List.append_assoc] at whole
  rw [c.split_offset.2]
  exact List.append_cancel_left
    ((List.take_append_drop c.position.offset buffer.text).trans whole)

/-- What has been read to the end of a part is a source of the whole. -/
theorem source_ofCut {last : Cursor (buffer.cut c.position.offset next.position.offset)}
    (atEnd : last.rest = []) :
    next.source c.position = (last.source .origin).moved c.position buffer.text := by
  have rest : next.rest = last.rest ++ (Excerpt.ofCut buffer le).behind := by
    rw [atEnd, behind_ofCut le]
    rfl
  have source := Excerpt.source_of_rest rest .origin
  rw [Position.after_origin, Excerpt.moveSource, start_ofCut le] at source
  exact source

theorem raw_ofCut {last : Cursor (buffer.cut c.position.offset next.position.offset)}
    (atEnd : last.rest = []) (data : List UInt8) :
    Node.raw (next.source c.position) data =
      (Node.raw (last.source .origin) data).moved c.position buffer.text := by
  rw [source_ofCut le atEnd]
  rfl

end Units

/-- A unit that is read to the end is the only node. -/
theorem reads_nodes_alone (left : c.rest ≠ []) {P : Node → Prop}
    (read : Reads (unit false c left) fun node next => next.rest = [] ∧ P node) :
    Reads (nodes none c) fun values _ => ∃ node, values = [node] ∧ P node := by
  refine reads_nodes_cons left (by simp) read ?_
  rintro node next ⟨atEnd, holds⟩
  refine (reads_nodes_end atEnd).imp ?_
  rintro _ last ⟨rfl, -⟩
  exact ⟨node, rfl, holds⟩

/-- An escaped hash is read alone as it is in its place. -/
theorem reads_escaped_alone (left : c.rest ≠ []) (text : c.rest = escapedHash) :
    Reads (unit false c left) fun value next =>
      next.rest = [] ∧ value = .raw (next.source c.position) [byte '#'] := by
  have ahead : escapeAhead c.rest = true := by
    rw [text]
    rfl
  rw [unit, if_pos ahead]
  refine .of_ok ⟨?_, rfl⟩
  change c.rest.drop 2 = []
  rw [text]
  rfl

/-- Raw text is read alone up to its end. -/
theorem reads_rawText_alone (left : c.rest ≠ []) {rest : List UInt8}
    (text : c.rest = rest.take (rawLength false rest.tail + 1))
    (unescaped : ¬ escapeAhead rest = true) (untagged : ¬ tagAhead rest = true) :
    Reads (unit false c left) fun value next =>
      next.rest = [] ∧ value = .raw (next.source c.position) c.rest := by
  have whole := List.take_append_drop (rawLength false rest.tail + 1) rest
  rw [← text] at whole
  have unescaped : ¬ escapeAhead c.rest = true := fun ahead =>
    unescaped (whole ▸ escapeAhead_append_of_ahead ahead _)
  have untagged : ¬ tagAhead c.rest = true := fun ahead =>
    untagged (whole ▸ tagAhead_append_of_ahead ahead _)
  have length : rawLength false c.rest.tail + 1 = c.rest.length := by
    cases rest with
    | nil => exact absurd text left
    | cons b more =>
      rw [text, List.tail_cons, List.take_succ_cons, List.tail_cons, rawLength_take,
        List.length_cons]
  rw [unit, if_neg unescaped, if_neg untagged]
  refine .of_ok ?_
  simp only [rawText, length, Cursor.rest_advance, List.drop_length, List.take_length, true_and]

/-- A unit is read alone as it is read where it stands. -/
theorem unit_local {left : c.rest ≠ []} {r : Reading buffer c.remaining Node}
    (read : unit false c left = .ok r) :
    ∃ value, parse (buffer.cut c.position.offset r.next.position.offset) = .ok [value] ∧
      r.value = value.moved c.position buffer.text := by
  have le : c.position.offset ≤ r.next.position.offset := Cursor.offset_le (Nat.le_of_lt r.below)
  have filled : (Cursor.start (buffer.cut c.position.offset r.next.position.offset)).rest ≠ [] :=
    text_cut_ne_nil r.below
  have alone : Reads (unit false (Cursor.start _) filled) fun value next =>
      next.rest = [] ∧ r.value = value.moved c.position buffer.text := by
    unfold unit at read
    split at read
    · rename_i ahead
      cases read
      refine (reads_escaped_alone filled ((text_cut 2).trans (take_of_escapeAhead ahead))).imp ?_
      rintro _ next ⟨atEnd, rfl⟩
      exact ⟨atEnd, raw_ofCut le atEnd _⟩
    split at read
    · rename_i ahead
      have shut := shut_cut r.below (tag_behind left r read)
      have abreast : (Excerpt.ofCut buffer le).Abreast (Cursor.start _) c :=
        ⟨rest_ofCut le, fun _ => shut⟩
      rw [abreast.rest] at ahead
      refine reads_unit_tag filled ((shut.tagAhead_append _).symm.trans ahead) ?_
      refine (Excerpt.tag_echoes abreast left filled r read ?_).imp ?_
      · rw [behind_ofCut le]
        exact Nat.le_refl _
      · rintro value next ⟨place, same⟩
        have count := place.remaining
        rw [behind_ofCut le] at count
        refine ⟨List.length_eq_zero_iff.mp (Nat.add_eq_right.mp count.symm), ?_⟩
        rw [← start_ofCut le]
        exact same
    · rename_i unescaped untagged
      cases read
      refine (reads_rawText_alone filled (text_cut _) unescaped untagged).imp ?_
      rintro _ next ⟨atEnd, rfl⟩
      exact ⟨atEnd, (congrArg (Node.raw _) (text_cut _).symm).trans (raw_ofCut le atEnd _)⟩
  obtain ⟨_, parsed, value, rfl, same⟩ := parse_of_reads (reads_nodes_alone filled alone)
  exact ⟨value, parsed, same⟩

/-! ## Templates -/

/-- Every node of a template is read as a unit from where it starts up to where it stops. -/
theorem nodes_units {buffer : Buffer} (c : Cursor buffer) :
    Ensures (nodes none c) fun values _ => ∀ node ∈ values, ∃ (c' : Cursor buffer)
      (left : c'.rest ≠ []) (r : Reading buffer c'.remaining Node),
        unit false c' left = .ok r ∧ r.value = node := by
  unfold nodes
  split
  · exact .of_ok (List.forall_mem_nil _)
  split
  · exact .of_ok (List.forall_mem_nil _)
  rename_i left _
  intro r' read
  obtain ⟨r, first, read⟩ := exists_of_bind read
  have below := r.below
  obtain ⟨others, following, read⟩ := exists_of_bind read
  cases read
  exact List.forall_mem_cons.mpr ⟨⟨c, left, r, first, rfl⟩, nodes_units r.next _ following⟩
termination_by c.remaining

/-- Each node of a template comes from its own bytes alone: they are parsed to one node, and it is
that node but for where its sources outside of string literals are counted from. -/
theorem parse_unit {nodes : List Node} (parsed : parse buffer = .ok nodes) {node : Node}
    (member : node ∈ nodes) :
    ∃ unit, parse (buffer.cut node.source.start node.source.stop) = .ok [unit] ∧
      node = unit.moved node.source.place buffer.text := by
  obtain ⟨_, units⟩ := (nodes_units (Cursor.start buffer)).of_value parsed
  obtain ⟨c, left, r, read, rfl⟩ := units node member
  obtain ⟨laid, start, stop⟩ := (unit_spans false c left).ensures r read
  have place : r.value.source.place = c.position := by
    rw [laid.place.counted.place_eq, laid.place.there, start]
    exact c.split_offset.1.symm
  rw [place, start, stop]
  exact unit_local read

/-- A tag on a string with a tag of its own, between a line break and what looks like a branch. -/
private def neighbours : Buffer := ⟨"t", "\n#t(\"a#(x)\") else \x7b\x7d".toList.map byte⟩

private def tagSource (start stop : Nat) : Source :=
  ⟨"t", 1, start - 1, start, stop, neighbours.text⟩

private def stringSource (start stop : Nat) : Source :=
  ⟨"t", 0, start, start, stop, "a#(x)".toList.map byte⟩

private def middleTag : Node :=
  .tag (tagSource 1 12) "t"
    [.interpolated (tagSource 4 11)
      [.raw (stringSource 0 1) [byte 'a'],
        .tag (stringSource 1 5) "" [.identifier (stringSource 3 4) ⟨[.key "x"]⟩] none]] none

private def neighbourNodes : List Node :=
  [.raw ⟨"t", 0, 0, 0, 1, neighbours.text⟩ [byte '\n'], middleTag,
    .raw (tagSource 12 20) (" else \x7b\x7d".toList.map byte)]

/-- The tag comes from its own bytes, as the second of three nodes. -/
theorem parse_unit_middle : parse neighbours = .ok neighbourNodes ∧
    neighbours.cut 1 12 = ⟨"t", "#t(\"a#(x)\")".toList.map byte⟩ ∧
    ∃ unit, parse (neighbours.cut 1 12) = .ok [unit] ∧
      middleTag = unit.moved ⟨1, 1, 0⟩ neighbours.text := by
  have parsed : parse neighbours = .ok neighbourNodes := by cbv
  have member : middleTag ∈ neighbourNodes := List.mem_cons_of_mem _ List.mem_cons_self
  exact ⟨parsed, by decide, parse_unit parsed member⟩

end Stencil.Grammar.Kit
