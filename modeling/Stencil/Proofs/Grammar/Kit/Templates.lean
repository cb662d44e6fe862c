import Stencil.Proofs.Grammar.Kit.TagRules

/-! # Reading templates

A written tree of statements is read back as the tree. The induction is on how it is written, with
one case for each kind of statement; a statement is read to its end where what follows lets it end
there, and in a proper tree it always does.
-/

namespace Stencil.Grammar.Kit

variable {buffer : Buffer}

/-! ## What reading gives -/

/-- The text is read as the statement wherever the statement may end behind it. -/
def ReadsStmt (s : Stmt) (text : List UInt8) : Prop :=
  ∀ (buffer : Buffer) (inBody : Bool) (c : Cursor buffer) (left : c.rest ≠ []) (rest : List UInt8),
    c.rest = text ++ rest → s.Follows inBody rest →
      Reads (unit inBody c left) fun node next => node.bare = s.node ∧ next.rest = rest

/-- The text is read as the statements of a body, whatever blanks stand before its brace. -/
def ReadsBody (body : List Stmt) (block : List UInt8) : Prop :=
  ∃ gap inner, LineBlank gap ∧ block = gap ++ byte '\x7b' :: inner ∧
    ∀ (gap' : List UInt8) (buffer : Buffer) (c : Cursor buffer) (rest : List UInt8),
      LineBlank gap' → c.rest = gap' ++ byte '\x7b' :: (inner ++ rest) →
        Reads (Kit.body c) fun values next =>
          Node.bareAll values = Stmt.nodes body ∧ next.rest = rest

/-- The text is read as further branches where no other branch follows. -/
def ReadsBranches (others : List (Expr × List Stmt)) (further : List UInt8) : Prop :=
  ∀ (buffer : Buffer) (c : Cursor buffer) (rest : List UInt8),
    c.rest = further ++ rest → branchAhead? rest = none →
      Reads (branches c) fun values next =>
        Node.bareBranches values = Stmt.branches others ∧ next.rest = rest

/-- Here ends a template, or a body whose brace is taken as well. -/
def Ending (opened : Option Position) (rest behind : List UInt8) : Prop :=
  match opened with
  | none => rest = [] ∧ behind = []
  | some _ => rest = byte '\x7d' :: behind

/-- The text is read as the statements where they end. -/
def ReadsStmts (stmts : List Stmt) (text : List UInt8) : Prop :=
  ∀ (buffer : Buffer) (opened : Option Position) (c : Cursor buffer) (rest behind : List UInt8),
    c.rest = text ++ rest → Ending opened rest behind →
      Reads (nodes opened c) fun values next =>
        Node.bareAll values = Stmt.nodes stmts ∧ next.rest = behind

theorem Ending.stops {opened : Option Position} {rest behind : List UInt8}
    (ending : Ending opened rest behind) : Stops opened.isSome rest := by
  cases opened with
  | none => exact .inl ending.1
  | some start =>
    have close : rest = byte '\x7d' :: behind := ending
    exact .inr (.inl ⟨rfl, by rw [close]; rfl⟩)

/-! ## Statements -/

/-- A tag is read as a statement when its rule reads it. -/
theorem ReadsStmt.of_tag {s : Stmt} {text : List UInt8} (written : WrittenStmt s text)
    (tag : ∀ data, s ≠ .raw data)
    (read : ∀ (buffer : Buffer) (inBody : Bool) (c : Cursor buffer) (left : c.rest ≠ [])
      (rest : List UInt8), c.rest = text ++ rest → s.Follows inBody rest →
        Reads (Kit.tag c left) fun node next => node.bare = s.node ∧ next.rest = rest) :
    ReadsStmt s text := by
  intro buffer inBody c left rest there follows
  have ahead : tagAhead c.rest = true := there ▸ written.tagAhead tag rest
  exact reads_unit_tag left ahead (read buffer inBody c left rest there follows)

/-- Raw text is read as it is. -/
theorem ReadsStmt.raw (data : RawText) : ReadsStmt (.raw data) data.bytes := by
  intro buffer inBody c left rest there follows
  have plain : Plain inBody data.bytes rest :=
    ⟨data.hashless, fun _ => data.unclosed, fun _ => data.unescaped⟩
  exact reads_unit_raw left there data.nonempty plain follows

theorem ReadsStmt.print {e : Expr} {before text after : List UInt8} (blankBefore : Blank before)
    (argument : Written 0 e text) (blankAfter : Blank after) :
    ReadsStmt (.print e) (byte '#' :: byte '(' :: (before ++ text ++ after ++ [byte ')'])) := by
  refine .of_tag (.print blankBefore argument blankAfter) (fun _ => nofun)
    fun buffer inBody c left rest there _ => ?_
  have there' : c.rest = byte '#' :: byte '(' :: (before ++ text ++ after ++ byte ')' :: rest) := by
    simpa using there
  refine (reads_tag_print blankBefore argument.readable blankAfter left there').imp ?_
  rintro _ next ⟨⟨source, value, rfl, same⟩, rests⟩
  refine ⟨?_, rests⟩
  rw [Expr.Matches] at same
  rw [Node.bare, Node.bareAll, same]
  rfl

theorem ReadsStmt.embed {e : Expr} {before text after : List UInt8} (blankBefore : Blank before)
    (argument : Written 0 e text) (blankAfter : Blank after) :
    ReadsStmt (.embed e)
      (byte '#' :: (embedWord ++ byte '(' :: (before ++ text ++ after ++ [byte ')']))) := by
  refine .of_tag (.embed blankBefore argument blankAfter) (fun _ => nofun)
    fun buffer inBody c left rest there _ => ?_
  have there' : c.rest = byte '#' ::
      (embedWord ++ byte '(' :: (before ++ text ++ after ++ byte ')' :: rest)) := by
    simpa using there
  exact reads_tag_embed left there' fun start c' after =>
    reads_oneArgument blankBefore argument.readable blankAfter .embed start after

/-- A call without a body is read as written. -/
theorem ReadsStmt.tag (name : TagName) {parameters : List Expr} {text : List UInt8}
    (inside : WrittenArguments parameters text) :
    ReadsStmt (.tag name parameters none)
      (byte '#' :: (name.bytes ++ byte '(' :: (text ++ [byte ')']))) := by
  refine .of_tag (.tag name inside) (fun _ => nofun) fun buffer inBody c left rest there follows => ?_
  have there' : c.rest = byte '#' :: (name.bytes ++ byte '(' :: (text ++ byte ')' :: rest)) := by
    simpa using there
  exact reads_tag_named left name there'
    (fun c' after => inside.reads buffer c' _ after) follows

/-- A body that must be there. -/
theorem ReadsBody.required {body : List Stmt} {block : List UInt8} (read : ReadsBody body block)
    {construct : Construct} {start : Position} {c : Cursor buffer} {rest : List UInt8}
    (there : c.rest = block ++ rest) :
    Reads (requiredBody construct start c) fun values next =>
      Node.bareAll values = Stmt.nodes body ∧ next.rest = rest := by
  obtain ⟨gap, inner, blank, rfl, inside⟩ := read
  rw [List.append_assoc] at there
  exact reads_requiredBody (there ▸ bodyAhead_braces blank _) (inside gap buffer c rest blank there)

theorem ReadsStmt.tagWithBody (name : TagName) {parameters : List Expr} {body : List Stmt}
    {text block : List UInt8} (inside : WrittenArguments parameters text)
    (braces : WrittenBody body block) (read : ReadsBody body block) :
    ReadsStmt (.tag name parameters (some body))
      (byte '#' :: (name.bytes ++ byte '(' :: (text ++ byte ')' :: block))) := by
  refine .of_tag (.tagWithBody name inside braces) (fun _ => nofun)
    fun buffer inBody c left rest there _ => ?_
  obtain ⟨gap, inner, blank, rfl, reads⟩ := read
  have there' : c.rest = byte '#' :: (name.bytes ++ byte '(' ::
      (text ++ byte ')' :: (gap ++ byte '\x7b' :: (inner ++ rest)))) := by
    simpa using there
  exact reads_tag_named_body left name there'
    (fun c' after => inside.reads buffer c' _ after) (bodyAhead_braces blank _)
    fun c' after => reads gap buffer c' rest blank after

/-- A conditional is read as written, with all of its branches. -/
theorem ReadsStmt.conditional {condition : Expr} {body : List Stmt}
    {others : List (Expr × List Stmt)} {before text after block further : List UInt8}
    (blankBefore : Blank before) (argument : Written 0 condition text) (blankAfter : Blank after)
    (braces : WrittenBody body block) (following : WrittenBranches others further)
    (read : ReadsBody body block) (readOthers : ReadsBranches others further) :
    ReadsStmt (.conditional condition body others)
      (byte '#' :: (ifWord ++ byte '(' :: (before ++ text ++ after ++ byte ')' ::
        (block ++ further)))) := by
  refine .of_tag (.conditional blankBefore argument blankAfter braces following) (fun _ => nofun)
    fun buffer inBody c left rest there follows => ?_
  have there' : c.rest = byte '#' :: (ifWord ++ byte '(' ::
      (before ++ text ++ after ++ byte ')' :: (block ++ (further ++ rest)))) := by
    simpa using there
  exact reads_tag_conditional left there'
    (fun start c' after =>
      reads_oneArgument blankBefore argument.readable blankAfter .condition start after)
    (fun start c' after => read.required after)
    fun c' after => readOthers buffer c' rest after follows

/-- A loop is read as written. -/
theorem ReadsStmt.loop (key : Key) {data : Expr} {body : List Stmt}
    {first second third text after block : List UInt8} (blankFirst : Blank first)
    (blankSecond : Blank second) (some : second ≠ []) (blankThird : Blank third)
    (some' : third ≠ []) (source : Written 0 data text) (blankAfter : Blank after)
    (braces : WrittenBody body block) (read : ReadsBody body block) :
    ReadsStmt (.loop key data body)
      (byte '#' :: (forWord ++ byte '(' :: (first ++ key.bytes ++ second ++ inWord ++ third ++
        text ++ after ++ byte ')' :: block))) := by
  refine .of_tag (.loop key blankFirst blankSecond some blankThird some' source blankAfter braces)
    (fun _ => nofun) fun buffer inBody c left rest there _ => ?_
  have there' : c.rest = byte '#' :: (forWord ++ byte '(' :: (first ++ key.bytes ++ second ++
      (inWord ++ (third ++ (text ++ after ++ byte ')' :: (block ++ rest)))))) := by
    simpa using there
  refine reads_tag_loop left there' fun start c' opened => ?_
  refine reads_loop key blankFirst blankSecond some blankThird some' opened (fun c'' behind => ?_)
    fun start c'' behind => read.required behind
  refine source.readable.expression blankThird blankAfter (.inl rfl) ?_
  rw [behind]
  simp

/-! ## Bodies, branches and lists -/

theorem ReadsBody.braces {body : List Stmt} {gap text : List UInt8} (blank : LineBlank gap)
    (inside : ReadsStmts body text) :
    ReadsBody body (gap ++ byte '\x7b' :: (text ++ [byte '\x7d'])) := by
  refine ⟨gap, text ++ [byte '\x7d'], blank, rfl, fun gap' buffer c rest blank' there => ?_⟩
  refine reads_body blank' there fun start c' after => ?_
  rw [List.append_assoc] at after
  exact inside buffer _ c' _ rest after rfl

theorem ReadsBranches.none : ReadsBranches [] [] := by
  intro buffer c rest there last
  refine (reads_branches_none (there ▸ last)).imp ?_
  rintro _ next ⟨rfl, rests⟩
  exact ⟨rfl, rests.trans there⟩

theorem ReadsBranches.otherwise {body : List Stmt} {gap block : List UInt8} (blank : LineBlank gap)
    (read : ReadsBody body block) :
    ReadsBranches [(.bool true, body)] (gap ++ elseWord ++ block) := by
  intro buffer c rest there _
  obtain ⟨gap', inner, blank', rfl, inside⟩ := read
  have there' : c.rest = gap ++ elseWord ++ gap' ++ byte '\x7b' :: (inner ++ rest) := by
    simpa using there
  exact reads_branches_otherwise blank blank' there' fun start c' after =>
    reads_requiredBody (after ▸ rfl) (inside [] buffer c' rest lineBlank_nil after)

theorem ReadsBranches.elseIf {condition : Expr} {body : List Stmt}
    {others : List (Expr × List Stmt)}
    {first second third before text after block further : List UInt8}
    (blankFirst : LineBlank first) (blankSecond : LineBlank second) (blankThird : LineBlank third)
    (blankBefore : Blank before) (argument : Written 0 condition text) (blankAfter : Blank after)
    (read : ReadsBody body block) (readOthers : ReadsBranches others further) :
    ReadsBranches ((condition, body) :: others)
      (first ++ elseWord ++ second ++ ifWord ++ third ++ byte '(' ::
        (before ++ text ++ after ++ byte ')' :: (block ++ further))) := by
  intro buffer c rest there last
  have there' : c.rest = first ++ elseWord ++ second ++ (ifWord ++ (third ++ byte '(' ::
      (before ++ text ++ after ++ byte ')' :: (block ++ (further ++ rest))))) := by
    simpa using there
  exact reads_branches_elseIf blankFirst blankSecond blankThird there'
    (fun start c' opened =>
      reads_oneArgument blankBefore argument.readable blankAfter .elseCondition start opened)
    (fun start c' behind => read.required behind)
    fun c' behind => readOthers buffer c' rest behind last

theorem ReadsStmts.nil : ReadsStmts [] [] := by
  intro buffer opened c rest behind there ending
  cases opened with
  | none =>
    refine (reads_nodes_end (there.trans ending.1)).imp ?_
    rintro _ next ⟨rfl, atEnd⟩
    exact ⟨rfl, atEnd.trans ending.2.symm⟩
  | some start =>
    refine (reads_nodes_close (there.trans ending)).imp ?_
    rintro _ next ⟨rfl, rests⟩
    exact ⟨rfl, rests⟩

/-- A statement does not begin with the brace that closes a body. -/
theorem WrittenStmt.opens {s : Stmt} {text : List UInt8} (written : WrittenStmt s text)
    (rest : List UInt8) : ∃ b more, text ++ rest = b :: more ∧ b ≠ byte '\x7d' := by
  by_cases raw : ∃ data, s = .raw data
  · obtain ⟨data, rfl⟩ := raw
    cases written
    obtain ⟨b, more, parts⟩ := List.exists_cons_of_ne_nil data.nonempty
    refine ⟨b, more ++ rest, by rw [parts]; rfl, fun close => data.unclosed ?_⟩
    rw [parts, close]
    exact List.mem_cons_self
  · have hash := head_of_tagAhead (written.tagAhead (fun data same => raw ⟨data, same⟩) rest)
    obtain ⟨more, same⟩ := List.head?_eq_some_iff.mp hash
    exact ⟨_, more, same, by decide⟩

/-- A statement is read before others as long as nothing of them goes on with it. -/
theorem ReadsStmts.cons {s : Stmt} {stmts : List Stmt} {text others : List UInt8}
    (written : WrittenStmt s text) (following : WrittenStmts stmts others)
    (proper : Stmt.ProperAll (s :: stmts)) (read : ReadsStmt s text)
    (readOthers : ReadsStmts stmts others) : ReadsStmts (s :: stmts) (text ++ others) := by
  intro buffer opened c rest behind there ending
  obtain ⟨-, joins, properOthers⟩ := proper
  rw [List.append_assoc] at there
  obtain ⟨b, more, parts, open'⟩ := written.opens (others ++ rest)
  rw [← there] at parts
  have left : c.rest ≠ [] := by simp [parts]
  have follows := following.follows (s := s) properOthers joins ending.stops
  refine reads_nodes_cons left (fun _ => ?_) (read buffer opened.isSome c left _ there follows) ?_
  · rw [parts, List.head?_cons]
    exact fun close => open' (Option.some.inj close)
  · rintro node next ⟨same, after⟩
    refine (readOthers buffer opened next rest behind after ending).imp ?_
    rintro values last ⟨all, rests⟩
    exact ⟨by rw [Node.bareAll, same, all]; rfl, rests⟩

/-! ## All templates -/

mutual

/-- Whatever way a statement is written, it is read back. -/
theorem WrittenStmt.reads {s : Stmt} {text : List UInt8} :
    WrittenStmt s text → s.Proper → ReadsStmt s text
  | .raw data, _ => .raw data
  | .print blankBefore argument blankAfter, _ => .print blankBefore argument blankAfter
  | .tag name inside, _ => .tag name inside
  | .tagWithBody name inside braces, proper =>
    .tagWithBody name inside braces (braces.reads proper)
  | .conditional blankBefore argument blankAfter braces following, proper =>
    .conditional blankBefore argument blankAfter braces following (braces.reads proper.1)
      (following.reads proper.2)
  | .loop key blankFirst blankSecond left blankThird right source blankAfter braces, proper =>
    .loop key blankFirst blankSecond left blankThird right source blankAfter braces
      (braces.reads proper)
  | .embed blankBefore argument blankAfter, _ => .embed blankBefore argument blankAfter

/-- Whatever way a body is written, it is read back. -/
theorem WrittenBody.reads {body : List Stmt} {block : List UInt8} :
    WrittenBody body block → Stmt.ProperAll body → ReadsBody body block
  | .braces blank inside, proper => .braces blank (inside.reads proper)

/-- Whatever way further branches are written, they are read back in order. -/
theorem WrittenBranches.reads {others : List (Expr × List Stmt)} {further : List UInt8} :
    WrittenBranches others further → Stmt.ProperBranches others → ReadsBranches others further
  | .none, _ => .none
  | .elseIf blankFirst blankSecond blankThird blankBefore argument blankAfter braces following,
      proper =>
    .elseIf blankFirst blankSecond blankThird blankBefore argument blankAfter
      (braces.reads proper.1) (following.reads proper.2)
  | .otherwise blank braces, proper => .otherwise blank (braces.reads proper.1)

/-- Whatever way proper statements are written, they are read back. -/
theorem WrittenStmts.reads {stmts : List Stmt} {text : List UInt8} :
    WrittenStmts stmts text → Stmt.ProperAll stmts → ReadsStmts stmts text
  | .nil, _ => .nil
  | .cons first following, proper =>
    .cons first following proper (first.reads proper.1) (following.reads proper.2.2)

end

/-- Every tree of statements can be written, and a template that writes a proper one in any way is
parsed as that tree. -/
theorem parse_writtenStmts (file : String) (stmts : List Stmt) :
    (∃ text, WrittenStmts stmts text) ∧
      (Stmt.ProperAll stmts → ∀ text, WrittenStmts stmts text →
        ∃ values, parse ⟨file, text⟩ = .ok values ∧ Node.bareAll values = Stmt.nodes stmts) := by
  refine ⟨Stmt.exists_writtenStmts stmts, fun proper text written => ?_⟩
  have read := written.reads proper ⟨file, text⟩ none (Cursor.start _) [] []
    (List.append_nil text).symm ⟨rfl, rfl⟩
  exact parse_of_reads (read.imp fun values next holds => holds.1)

private def mark (c : Char) (plain : byte c ∉ [byte '#', byte '\x7b', byte '\x7d', byte '\\']) :
    RawText where
  bytes := [byte c]
  nonempty := List.cons_ne_nil _ _
  hashless := fun member => plain (by simp [List.mem_singleton.mp member])
  unopened := fun member => plain (by simp [List.mem_singleton.mp member])
  unclosed := fun member => plain (by simp [List.mem_singleton.mp member])
  unescaped := fun last => plain (by
    have same : byte c = byte '\\' := Option.some.inj last
    simp [same])

/-- A last branch without a condition is one whose condition is the truth, and raw text goes on
behind its brace. -/
theorem parse_writtenStmts_otherwise :
    ∃ values, parse ⟨"page", "#if(true) \x7bx\x7d else \x7by\x7dz".toList.map byte⟩ = .ok values ∧
      Node.bareAll values = Stmt.nodes
        [.conditional (.bool true) [.raw (mark 'x' (by decide))]
          [(.bool true, [.raw (mark 'y' (by decide))])], .raw (mark 'z' (by decide))] := by
  have space : LineBlank [byte ' '] := by
    rintro _ (_ | ⟨_, ⟨⟩⟩)
    decide
  have truth : Written 0 (.bool true) ("true".toList.map byte) :=
    (Written.bool true).loosen (by decide)
  have alone (data : RawText) : WrittenStmts [.raw data] (data.bytes ++ []) :=
    .cons (.raw data) .nil
  have proper (data : RawText) : Stmt.ProperAll [.raw data] := ⟨trivial, nofun, trivial⟩
  have written := @WrittenStmt.conditional _ _ _ [] _ [] _ _ blank_nil truth blank_nil
    (.braces space (alone (mark 'x' (by decide))))
    (.otherwise space (.braces space (alone (mark 'y' (by decide)))))
  refine (parse_writtenStmts "page" _).2 ?_ _ (.cons written (alone (mark 'z' (by decide))))
  refine ⟨⟨proper _, proper _, trivial⟩, ?_, proper _⟩
  rintro _ ⟨⟩
  rfl

end Stencil.Grammar.Kit
