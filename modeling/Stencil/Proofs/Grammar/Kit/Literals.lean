import Stencil.Proofs.Grammar.Kit.RawText

/-! # Reading string literals

Between its quotes a literal is read twice at once: as plain text, and as a template in which an
escaped hash keeps its backslash. A quoted text is read back as it is, and its template is the text
with every hash protected, so that the template opens no tag.
-/

namespace Stencil.Grammar.Kit

variable {buffer : Buffer}

/-- The bytes with a backslash before every hash. -/
def protect (bytes : List UInt8) : List UInt8 :=
  bytes.flatMap fun b => if b = byte '#' then [byte '\\', b] else [b]

theorem protect_append (first second : List UInt8) :
    protect (first ++ second) = protect first ++ protect second := List.flatMap_append

/-- There is nothing to protect without a hash. -/
theorem protect_of_hashless {bytes : List UInt8} (hashless : byte '#' ∉ bytes) :
    protect bytes = bytes := by
  induction bytes with
  | nil => rfl
  | cons b bytes ih =>
    simp only [List.mem_cons, not_or] at hashless
    rw [protect, List.flatMap_cons, if_neg (Ne.symm hashless.1)]
    exact congrArg (b :: ·) (ih hashless.2)

/-! ## Resolving escapes -/

theorem readQuoted_close (rest : List UInt8) :
    readQuoted (byte '"' :: rest) = .ok ⟨[], [], 1⟩ := by
  rw [readQuoted.eq_def]
  exact if_pos rfl

theorem readQuoted_byte {b : UInt8} {more : List UInt8} {q : Quoted} (quoteless : b ≠ byte '"')
    (slashless : b ≠ byte '\\') (following : readQuoted more = .ok q) :
    readQuoted (b :: more) = .ok ⟨b :: q.plain, b :: q.template, 1 + q.length⟩ := by
  rw [readQuoted.eq_def]
  simp only [if_neg quoteless, if_neg slashless, following]
  rfl

/-- An escaped hash is kept as it is in the template, and is a hash in the text. -/
theorem readQuoted_hash {more : List UInt8} {q : Quoted} (following : readQuoted more = .ok q) :
    readQuoted (byte '\\' :: byte '#' :: more) =
      .ok ⟨byte '#' :: q.plain, byte '\\' :: byte '#' :: q.template, 2 + q.length⟩ := by
  rw [readQuoted.eq_def]
  simp only [if_neg (show byte '\\' ≠ byte '"' by decide), if_true, following]
  rfl

/-- Any other escape stands for its byte, in the text and in the template. -/
theorem readQuoted_escape {e meant : UInt8} {more : List UInt8} {q : Quoted}
    (hashless : e ≠ byte '#') (escape : unescaped? e = some meant)
    (following : readQuoted more = .ok q) :
    readQuoted (byte '\\' :: e :: more) =
      .ok ⟨meant :: q.plain, meant :: q.template, 2 + q.length⟩ := by
  rw [readQuoted.eq_def]
  simp only [if_neg (show byte '\\' ≠ byte '"' by decide), if_true, if_neg hashless, escape,
    following]
  rfl

/-- Quoted bytes stand for themselves, whatever follows them. -/
theorem readQuoted_quote (bytes : List UInt8) {more : List UInt8} {q : Quoted}
    (following : readQuoted more = .ok q) :
    readQuoted (quote bytes ++ more) =
      .ok ⟨bytes ++ q.plain, protect bytes ++ q.template, (quote bytes).length + q.length⟩ := by
  induction bytes with
  | nil => rw [quote, List.flatMap_nil, List.nil_append, following]; simp [protect]
  | cons b bytes ih =>
    have cons : quote (b :: bytes) = (if isSpecial b then [byte '\\', b] else [b]) ++ quote bytes :=
      List.flatMap_cons
    have spelled : protect (b :: bytes) =
        (if b = byte '#' then [byte '\\', b] else [b]) ++ protect bytes := List.flatMap_cons
    rw [cons, spelled]
    by_cases hash : b = byte '#'
    · subst hash
      simp [isSpecial, readQuoted_hash ih]; omega
    by_cases special : isSpecial b = true
    · have escape : unescaped? b = some b := by
        simp only [isSpecial, Bool.or_eq_true, beq_iff_eq, hash, or_false] at special
        rcases special with rfl | rfl <;> decide
      simp [special, hash, readQuoted_escape hash escape ih]; omega
    · have plain : b ≠ byte '\\' ∧ b ≠ byte '"' := by
        simp only [isSpecial, Bool.or_eq_true, beq_iff_eq, not_or] at special
        exact special.1
      simp [special, hash, readQuoted_byte plain.2 plain.1 ih]; omega

/-- Bytes without a backslash or quote are read as they are. -/
theorem readQuoted_plain {bytes : List UInt8} (slashless : byte '\\' ∉ bytes)
    (quoteless : byte '"' ∉ bytes) {more : List UInt8} {q : Quoted}
    (following : readQuoted more = .ok q) :
    readQuoted (bytes ++ more) =
      .ok ⟨bytes ++ q.plain, bytes ++ q.template, bytes.length + q.length⟩ := by
  induction bytes with
  | nil => simpa using following
  | cons b bytes ih =>
    simp only [List.mem_cons, not_or] at slashless quoteless
    have read := readQuoted_byte (Ne.symm quoteless.1) (Ne.symm slashless.1)
      (ih slashless.2 quoteless.2)
    simp [read]; omega

/-- A literal whose contents are understood. -/
theorem stringLiteral_eq {c : Cursor buffer} (left : c.rest ≠ []) {q : Quoted} {text : String}
    (understood : readQuoted c.rest.tail = .ok q) (decodes : Utf8.decode? q.plain = some text) :
    ∃ literal, stringLiteral c left = .ok literal ∧ literal.text = text ∧
      literal.template = q.template ∧ literal.next.rest = c.rest.tail.drop q.length := by
  have inner : (c.advance 1).rest = c.rest.tail := by rw [Cursor.rest_advance, List.drop_one]
  rw [stringLiteral]
  split
  · rename_i why length failed
    rw [inner, understood] at failed
    contradiction
  · rename_i q' read
    rw [inner, understood, Except.ok.injEq] at read
    subst read
    split
    · rename_i undecodable
      rw [decodes] at undecodable
      contradiction
    · rename_i text' decoded
      rw [decodes, Option.some.injEq] at decoded
      subst decoded
      exact ⟨_, rfl, rfl, rfl, by rw [Cursor.rest_advance, inner]⟩

/-! ## Reading the template of a literal -/

/-- The nodes are raw, and their texts one after the other are a text. -/
def Spell (nodes : List Node) (cs : List Char) : Prop :=
  ∃ chunks : List (List Char),
    Node.bareAll nodes = chunks.map (fun chunk => .raw nowhere (Utf8.encodeChars chunk)) ∧
      chunks.flatten = cs

theorem Spell.nil : Spell [] [] := ⟨[], rfl, rfl⟩

theorem Spell.cons {node : Node} {nodes : List Node} {chunk cs : List Char}
    (first : node.bare = .raw nowhere (Utf8.encodeChars chunk)) (spell : Spell nodes cs) :
    Spell (node :: nodes) (chunk ++ cs) := by
  obtain ⟨chunks, same, rfl⟩ := spell
  exact ⟨chunk :: chunks, by rw [Node.bareAll, first, same, List.map_cons], rfl⟩

/-- Protected text ends only where a hash of its own or a tag begins. -/
theorem rawEnds_protect {cs : List Char} {rest : List UInt8}
    (first : cs = [] ∨ cs.head? = some '#') (stops : rest = [] ∨ tagAhead rest = true) :
    protect (Utf8.encodeChars cs) ++ rest = [] ∨
      rawEnds false (protect (Utf8.encodeChars cs) ++ rest) = true := by
  rcases first with rfl | first
  · exact stops.imp id fun ahead => by simp [rawEnds, protect, Utf8.encodeChars, ahead]
  · obtain ⟨cs, rfl⟩ := List.head?_eq_some_iff.mp first
    exact .inr rfl

theorem hash_not_mem_encodeChars {cs : List Char} (hashless : '#' ∉ cs) :
    byte '#' ∉ Utf8.encodeChars cs :=
  fun member => hashless ((Utf8.toUInt8_mem_encodeChars (by decide)).mp member)

/-- A text that begins with something else is cut before its first hash. -/
theorem split_at_hash {c : Char} (notHash : c ≠ '#') (cs : List Char) :
    ∃ chunk left, c :: cs = chunk ++ left ∧ '#' ∉ chunk ∧ chunk ≠ [] ∧
      (left = [] ∨ left.head? = some '#') := by
  refine ⟨(c :: cs).takeWhile (· != '#'), (c :: cs).dropWhile (· != '#'),
    List.takeWhile_append_dropWhile.symm, fun member => ?_, ?_, ?_⟩
  · simpa using List.all_eq_true.mp List.all_takeWhile _ member
  · simp [notHash]
  · have first := List.head?_dropWhile_not (· != '#') (c :: cs)
    cases left : (c :: cs).dropWhile (· != '#') with
    | nil => exact .inl rfl
    | cons d ds => rw [left] at first; exact .inr (by simpa using first)

/-- A protected text is read as raw nodes that spell it, before a tag or the end. -/
theorem reads_nodes_protect {rest : List UInt8} {Q : List Node → Cursor buffer → Prop}
    (stops : rest = [] ∨ tagAhead rest = true)
    (following : ∀ c : Cursor buffer, c.rest = rest → Reads (nodes none c) Q) :
    ∀ (cs : List Char) (c : Cursor buffer), c.rest = protect (Utf8.encodeChars cs) ++ rest →
      (rest ≠ [] → cs.getLast? ≠ some '\\') →
      Reads (nodes none c) fun values next =>
        ∃ raws others, values = raws ++ others ∧ Spell raws cs ∧ Q others next
  | [], c, there, _ => (following c there).imp fun values _ holds =>
      ⟨[], values, rfl, Spell.nil, holds⟩
  | d :: cs, c, there, plain => by
    by_cases hash : d = '#'
    · subst hash
      have escape : c.rest = byte '\\' :: byte '#' :: (protect (Utf8.encodeChars cs) ++ rest) := there
      have left : c.rest ≠ [] := by simp [escape]
      refine reads_nodes_cons left (by simp) (reads_escaped left escape) fun node next first => ?_
      have more := reads_nodes_protect stops following cs next first.2 fun some last =>
        plain some (by rw [List.getLast?_cons, last]; rfl)
      exact more.imp fun values _ ⟨raws, others, parts, spell, holds⟩ =>
        ⟨node :: raws, others, by rw [parts, List.cons_append],
          @Spell.cons _ _ ['#'] _ first.1 spell, holds⟩
    -- The text up to the first hash is one raw node; what is left begins with that hash.
    obtain ⟨chunk, left, parts, hashless, some, first⟩ := split_at_hash hash cs
    have shorter : left.length < (d :: cs).length := by
      have := List.length_pos_iff.mpr some
      rw [parts, List.length_append]; omega
    have own := hash_not_mem_encodeChars hashless
    have read : c.rest = Utf8.encodeChars chunk ++ (protect (Utf8.encodeChars left) ++ rest) := by
      rw [there, parts, Utf8.encodeChars_append, protect_append, protect_of_hashless own,
        List.append_assoc]
    have nonempty : Utf8.encodeChars chunk ≠ [] := by
      obtain ⟨e, chunk, rfl⟩ := List.exists_cons_of_ne_nil some
      simp [Utf8.encodeChars_cons, String.utf8EncodeChar_ne_nil]
    have remains : c.rest ≠ [] := by simp [read, nonempty]
    have opensNothing : Plain false (Utf8.encodeChars chunk)
        (protect (Utf8.encodeChars left) ++ rest) :=
      { hashless := own
        inside := by simp
        unescaped := fun follows last => by
          -- A hash can only follow when it is that of a tag behind the whole text.
          rcases first with rfl | begins
          · refine plain (fun empty => ?_) ?_
            · simp [empty, protect, Utf8.encodeChars] at follows
            · rw [parts, List.append_nil]
              exact (Utf8.getLast?_encodeChars (by decide)).mp last
          · obtain ⟨tail, rfl⟩ := List.head?_eq_some_iff.mp begins
            have clash : Option.some (byte '\\') = Option.some (byte '#') := follows
            exact absurd clash (by decide) }
    refine reads_nodes_cons remains (by simp)
      (reads_unit_raw remains read nonempty opensNothing (rawEnds_protect first stops))
      fun node next raw => ?_
    have more := reads_nodes_protect stops following left next raw.2 fun some last =>
      plain some (by rw [parts, List.getLast?_append, last]; rfl)
    exact more.imp fun values _ ⟨raws, others, same, spell, holds⟩ =>
      ⟨node :: raws, others, by rw [same, List.cons_append], parts ▸ Spell.cons raw.1 spell, holds⟩
termination_by cs => cs.length
decreasing_by
  · exact Nat.lt_succ_self _
  · exact shorter

/-- A protected text is read as raw nodes that spell it. -/
theorem reads_nodes_spell {cs : List Char} {c : Cursor buffer}
    (there : c.rest = protect (Utf8.encodeChars cs)) :
    Reads (nodes none c) fun values _ => Spell values cs := by
  have read := reads_nodes_protect (.inl rfl) (fun _ atEnd => reads_nodes_end atEnd) cs c
    (there.trans (List.append_nil _).symm) (fun some => absurd rfl some)
  refine read.imp fun values _ ⟨raws, others, parts, spell, atEnd, _⟩ => ?_
  rw [parts, atEnd, List.append_nil]
  exact spell

/-! ## The node of a literal -/

theorem isRaw_of_bare {node : Node} {data : List UInt8} (raw : node.bare = .raw nowhere data) :
    node.isRaw = true := by
  unfold Node.bare at raw
  split at raw <;> first | rfl | contradiction

theorem Spell.all_isRaw {nodes : List Node} {cs : List Char} (spell : Spell nodes cs) :
    nodes.all Node.isRaw = true := by
  obtain ⟨chunks, same, -⟩ := spell
  induction nodes generalizing chunks with
  | nil => rfl
  | cons node nodes ih =>
    cases chunks with
    | nil => simp [Node.bareAll] at same
    | cons chunk chunks =>
      rw [Node.bareAll, List.map_cons, List.cons.injEq] at same
      rw [List.all_cons, isRaw_of_bare same.1, ih chunks same.2]
      rfl

/-- A literal is plain text when its template holds raw text only, and else its nodes. -/
theorem reads_string_of {c : Cursor buffer} (left : c.rest ≠ []) {q : Quoted} {text : String}
    (understood : readQuoted c.rest.tail = .ok q) (decodes : Utf8.decode? q.plain = some text)
    {P : List Node → Prop} {Q : Node → Prop}
    (inner : Reads (nodes none (Cursor.start ⟨buffer.file, q.template⟩)) fun values _ => P values)
    (plain : (byte '#' ∉ q.template ∨ ∃ values, P values ∧ values.all Node.isRaw = true) →
      ∀ source, Q (.literal source (.string text)))
    (composed : ∀ values, P values → values.all Node.isRaw = false →
      ∀ source, Q (.interpolated source values)) :
    Reads (string c left) fun value next => Q value ∧ next.rest = c.rest.tail.drop q.length := by
  obtain ⟨literal, read, sameText, sameTemplate, rests⟩ := stringLiteral_eq left understood decodes
  obtain ⟨text, template, next, below⟩ := literal
  dsimp only at sameText sameTemplate rests
  subst sameText sameTemplate
  rw [string, read]
  change Reads (if q.template.contains (byte '#') = true then _ else _) _
  by_cases hash : q.template.contains (byte '#') = true
  · rw [if_pos hash]
    refine inner.bind ?_
    rintro ⟨values, last, bound⟩ holds
    refine .of_ok ⟨?_, rests⟩
    cases raw : values.all Node.isRaw with
    | true => simpa [raw] using plain (.inr ⟨values, holds, raw⟩) _
    | false => simpa [raw] using composed values holds raw _
  · rw [if_neg hash]
    exact .of_ok ⟨plain (.inl (by simpa using hash)) _, rests⟩

/-- A quoted text is read as that text. -/
theorem reads_string {c : Cursor buffer} (left : c.rest ≠ []) {s : String} {rest : List UInt8}
    (there : c.rest = quoted s ++ rest) :
    Reads (string c left) fun value next =>
      value.bare = .literal nowhere (.string s) ∧ next.rest = rest := by
  have tail : c.rest.tail = quote (Utf8.encode s) ++ byte '"' :: rest := by
    rw [there, quoted, List.cons_append, List.cons_append, List.tail_cons, List.append_assoc]
    rfl
  have understood := readQuoted_quote (Utf8.encode s) (readQuoted_close rest)
  rw [← tail] at understood
  simp only [List.append_nil] at understood
  have inner : Reads (nodes none (Cursor.start ⟨buffer.file, protect (Utf8.encode s)⟩))
      fun values _ => Spell values s.toList := reads_nodes_spell rfl
  refine (reads_string_of left understood (Utf8.decode?_encode s)
    (Q := fun value => value.bare = .literal nowhere (.string s)) inner (fun _ _ => rfl)
    fun values spell composed => absurd spell.all_isRaw (by simp [composed])).imp
    fun value next ⟨same, rests⟩ => ⟨same, ?_⟩
  rw [rests, tail, List.drop_append, List.drop_eq_nil_of_le (Nat.le_add_right _ _),
    Nat.add_sub_cancel_left]
  rfl

end Stencil.Grammar.Kit
