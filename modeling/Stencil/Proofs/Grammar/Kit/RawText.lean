import Stencil.Proofs.Grammar.Kit.Tokens

/-! # Reading raw text

Nodes are read one after the other. Raw text goes on until a tag, an escaped hash or, in a body,
the closing brace stands next; a text without any of these is read as a whole.
-/

namespace Stencil.Grammar.Kit

variable {buffer : Buffer}

/-! ## Nodes one by one -/

theorem reads_nodes_end {c : Cursor buffer} (atEnd : c.rest = []) :
    Reads (nodes none c) fun values next => values = [] ∧ next.rest = [] := by
  rw [nodes.eq_def, dif_pos atEnd]
  exact .of_ok ⟨rfl, atEnd⟩

theorem reads_nodes_close {c : Cursor buffer} {start : Position} {rest : List UInt8}
    (there : c.rest = byte '\x7d' :: rest) :
    Reads (nodes (some start) c) fun values next => values = [] ∧ next.rest = rest := by
  have left : c.rest ≠ [] := by simp [there]
  have close : ((some start).isSome && c.rest.head? == some (byte '\x7d')) = true := by
    simp [there]
  rw [nodes.eq_def, dif_neg left, if_pos close]
  refine .of_ok ⟨rfl, ?_⟩
  change (c.advance 1).rest = rest
  rw [Cursor.rest_advance, there]
  rfl

/-- A unit and the nodes after it. -/
theorem reads_nodes_cons {c : Cursor buffer} {opened : Option Position} (left : c.rest ≠ [])
    (inside : opened.isSome = true → c.rest.head? ≠ some (byte '\x7d'))
    {P : Node → Cursor buffer → Prop} {Q : List Node → Cursor buffer → Prop}
    (first : Reads (unit opened.isSome c left) P)
    (others : ∀ node next, P node next →
      Reads (nodes opened next) fun rest last => Q (node :: rest) last) :
    Reads (nodes opened c) Q := by
  have goesOn : ¬(opened.isSome && c.rest.head? == some (byte '\x7d')) = true := by
    cases opened with
    | none => simp
    | some start => simpa using inside rfl
  rw [nodes.eq_def, dif_neg left, if_neg goesOn]
  refine first.bind fun ⟨node, next, below⟩ holds => ?_
  exact (others node next holds).bind fun _ last => .of_ok last

/-- A template whose nodes are read is parsed. -/
theorem parse_of_reads {P : List Node → Prop}
    (read : Reads (nodes none (Cursor.start buffer)) fun values _ => P values) :
    ∃ values, parse buffer = .ok values ∧ P values := by
  obtain ⟨r, ok, holds⟩ := read
  rw [parse, ok]
  exact ⟨r.value, rfl, holds⟩

/-! ## Units -/

/-- An escaped hash is read as a hash. -/
theorem reads_escaped {c : Cursor buffer} {inBody : Bool} (left : c.rest ≠ [])
    {rest : List UInt8} (there : c.rest = byte '\\' :: byte '#' :: rest) :
    Reads (unit inBody c left) fun node next =>
      node.bare = .raw nowhere [byte '#'] ∧ next.rest = rest := by
  have ahead : escapeAhead c.rest = true := by simp [there, escapeAhead]
  rw [unit, if_pos ahead]
  refine .of_ok ⟨rfl, ?_⟩
  change (c.advance 2).rest = rest
  rw [Cursor.rest_advance, there]
  rfl

theorem reads_unit_tag {c : Cursor buffer} {inBody : Bool} (left : c.rest ≠ [])
    (ahead : tagAhead c.rest = true) {Q : Node → Cursor buffer → Prop}
    (read : Reads (tag c left) Q) : Reads (unit inBody c left) Q := by
  have dark : escapeAhead c.rest = false := by
    match rest : c.rest with
    | [] | [_] => simp [escapeAhead]
    | b :: b' :: more =>
      rw [rest] at ahead
      simp only [tagAhead, Bool.and_eq_true, beq_iff_eq] at ahead
      rw [ahead.1]
      rfl
  rw [unit, dark, if_neg (by simp), if_pos ahead]
  exact read

/-- No raw text ends before a byte that opens nothing. -/
theorem rawEnds_eq_false {inBody : Bool} {b : UInt8} {rest : List UInt8}
    (hashless : b ≠ byte '#') (inside : inBody = true → b ≠ byte '\x7d')
    (unescaped : b = byte '\\' → rest.head? ≠ some (byte '#')) :
    rawEnds inBody (b :: rest) = false := by
  have open' : (inBody && (b :: rest).head? == some (byte '\x7d')) = false := by
    cases inBody with
    | false => rfl
    | true => simpa using inside rfl
  have tag : tagAhead (b :: rest) = false := by
    cases rest with
    | nil => rfl
    | cons b' more => simp [tagAhead, hashless]
  have escape : escapeAhead (b :: rest) = false := by
    cases rest with
    | nil => rfl
    | cons b' more => simpa [escapeAhead] using unescaped
  rw [rawEnds, open', escape, tag]
  rfl

/-- The bytes open nothing of their own, and with what follows no escape. -/
structure Plain (inBody : Bool) (data rest : List UInt8) : Prop where
  hashless : byte '#' ∉ data
  inside : inBody = true → byte '\x7d' ∉ data
  unescaped : rest.head? = some (byte '#') → data.getLast? ≠ some (byte '\\')

/-- Raw text goes on over plain bytes to where it ends. -/
theorem rawLength_append {inBody : Bool} {data rest : List UInt8} (plain : Plain inBody data rest)
    (stops : rest = [] ∨ rawEnds inBody rest = true) :
    rawLength inBody (data ++ rest) = data.length := by
  induction data with
  | nil =>
    rcases stops with rfl | ends
    · rfl
    · cases rest with
      | nil => rfl
      | cons b more => simp [rawLength, ends]
  | cons b data ih =>
    obtain ⟨hashless, inside, unescaped⟩ := plain
    simp only [List.mem_cons, not_or] at hashless
    have goesOn : rawEnds inBody (b :: (data ++ rest)) = false := by
      refine rawEnds_eq_false (Ne.symm hashless.1) (fun body same => ?_) (fun slash first => ?_)
      · exact inside body (same ▸ List.mem_cons_self)
      · cases data with
        | nil => exact unescaped first (by simp [slash])
        | cons b' data =>
          simp only [List.cons_append, List.head?_cons, Option.some.injEq] at first
          exact hashless.2 (first ▸ List.mem_cons_self)
    have shorter : Plain inBody data rest :=
      { hashless := hashless.2
        inside := fun body member => inside body (List.mem_cons_of_mem _ member)
        unescaped := fun first last => unescaped first (by
          cases data with
          | nil => simp at last
          | cons b' data => rw [List.getLast?_cons_cons]; exact last) }
    rw [List.cons_append, rawLength, if_neg (by simp [goesOn]), ih shorter, List.length_cons]

/-- Plain bytes are read as one raw node. -/
theorem reads_unit_raw {c : Cursor buffer} {inBody : Bool} (left : c.rest ≠ [])
    {data rest : List UInt8} (there : c.rest = data ++ rest) (some : data ≠ [])
    (plain : Plain inBody data rest) (stops : rest = [] ∨ rawEnds inBody rest = true) :
    Reads (unit inBody c left) fun node next =>
      node.bare = .raw nowhere data ∧ next.rest = rest := by
  obtain ⟨b, more, rfl⟩ := List.exists_cons_of_ne_nil some
  have whole : rawLength inBody (b :: (more ++ rest)) = more.length + 1 :=
    rawLength_append plain stops
  have goesOn : rawEnds inBody c.rest = false := by
    cases ends : rawEnds inBody (b :: (more ++ rest)) with
    | true => simp [rawLength, ends] at whole
    | false => rw [there]; exact ends
  have length : rawLength inBody c.rest.tail = more.length := by
    rw [there, List.cons_append] at goesOn ⊢
    simpa [rawLength, goesOn] using whole
  simp only [rawEnds, Bool.or_eq_false_iff] at goesOn
  rw [unit, goesOn.1.2, goesOn.2, if_neg (by simp), if_neg (by simp)]
  refine .of_ok ?_
  simp only [rawText, Cursor.rest_advance]
  rw [length, there]
  exact ⟨congrArg (Node.raw nowhere) (@List.take_left _ (b :: more) rest),
    @List.drop_left _ (b :: more) rest⟩

end Stencil.Grammar.Kit
