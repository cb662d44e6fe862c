import Stencil.Proofs.Grammar.Kit.Expressions

/-! # How kit statements are written

Statements as trees, and the texts that write a tree. Raw text is written as it is, so it opens
nothing of its own, and a tree is proper only when none of it runs into what stands before it.
Spaces and tabs may stand before a body and around the words of a further branch. A last branch
whose condition is the truth may be written without a condition.
-/

namespace Stencil.Grammar.Kit

/-- The name of a tag that is no word of the grammar. -/
structure TagName where
  bytes : List UInt8
  opens : bytes.head?.any isLetter = true
  inside : ∀ b ∈ bytes, isNameByte b = true
  notIf : asciiText bytes ≠ "if"
  notFor : asciiText bytes ≠ "for"
  notEmbed : asciiText bytes ≠ "embed"

/-- The name of the variable of a loop. -/
structure Key where
  bytes : List UInt8
  nonempty : bytes ≠ []
  inside : ∀ b ∈ bytes, isNameByte b = true

/-- Text that opens and closes nothing. -/
structure RawText where
  bytes : List UInt8
  nonempty : bytes ≠ []
  hashless : byte '#' ∉ bytes
  unopened : byte '\x7b' ∉ bytes
  unclosed : byte '\x7d' ∉ bytes
  unescaped : bytes.getLast? ≠ some (byte '\\')

inductive Stmt
  | raw (data : RawText)
  | print (e : Expr)
  | tag (name : TagName) (parameters : List Expr) (body : Option (List Stmt))
  | conditional (condition : Expr) (body : List Stmt) (others : List (Expr × List Stmt))
  | loop (key : Key) (data : Expr) (body : List Stmt)
  | embed (path : Expr)

namespace Stmt

mutual

def node : Stmt → Node
  | raw data => .raw nowhere data.bytes
  | print e => .tag nowhere "" [e.node] none
  | tag name parameters none =>
    .tag nowhere (asciiText name.bytes) (Expr.nodes parameters) none
  | tag name parameters (some body) =>
    .tag nowhere (asciiText name.bytes) (Expr.nodes parameters) (some (nodes body))
  | conditional condition body others =>
    .conditional nowhere condition.node (nodes body) (branches others)
  | loop key data body =>
    .loop nowhere (.literal nowhere (.string (asciiText key.bytes))) data.node (nodes body)
  | embed path => .embed nowhere path.node

def nodes : List Stmt → List Node
  | [] => []
  | s :: rest => s.node :: nodes rest

/-- The bare branches of a conditional after its first. -/
def branches : List (Expr × List Stmt) → List (Node × List Node)
  | [] => []
  | (condition, body) :: rest => (condition.node, nodes body) :: branches rest

end

/-- A statement may stand before another one. -/
def Joins : Stmt → Stmt → Prop
  | raw _, raw _ => False
  | conditional .., raw data => elseWord.isPrefixOf (afterLineBlanks data.bytes) = false
  | _, _ => True

mutual

/-- Each statement of a body of the statement may stand before the next. -/
def Proper : Stmt → Prop
  | raw _ | print _ | tag _ _ none | embed _ => True
  | tag _ _ (some body) | loop _ _ body => ProperAll body
  | conditional _ body others => ProperAll body ∧ ProperBranches others

/-- Each of the statements may stand before the next, also in bodies. -/
def ProperAll : List Stmt → Prop
  | [] => True
  | s :: rest => s.Proper ∧ (∀ s' ∈ rest.head?, s.Joins s') ∧ ProperAll rest

/-- Each statement of the branches may stand before the next. -/
def ProperBranches : List (Expr × List Stmt) → Prop
  | [] => True
  | (_, body) :: rest => ProperAll body ∧ ProperBranches rest

end

end Stmt

def LineBlank (bytes : List UInt8) : Prop := ∀ b ∈ bytes, Text.isLineBlank b = true

theorem lineBlank_nil : LineBlank [] := by simp [LineBlank]

def forWord : List UInt8 := [byte 'f', byte 'o', byte 'r']

def embedWord : List UInt8 := [byte 'e', byte 'm', byte 'b', byte 'e', byte 'd']

mutual

inductive WrittenStmt : Stmt → List UInt8 → Prop
  | raw (data : RawText) : WrittenStmt (.raw data) data.bytes
  | print {e : Expr} {before text after : List UInt8} (blankBefore : Blank before)
      (argument : Written 0 e text) (blankAfter : Blank after) :
      WrittenStmt (.print e) (byte '#' :: byte '(' :: (before ++ text ++ after ++ [byte ')']))
  | tag (name : TagName) {parameters : List Expr} {text : List UInt8}
      (inside : WrittenArguments parameters text) :
      WrittenStmt (.tag name parameters none)
        (byte '#' :: (name.bytes ++ byte '(' :: (text ++ [byte ')'])))
  | tagWithBody (name : TagName) {parameters : List Expr} {body : List Stmt}
      {text block : List UInt8} (inside : WrittenArguments parameters text)
      (braces : WrittenBody body block) :
      WrittenStmt (.tag name parameters (some body))
        (byte '#' :: (name.bytes ++ byte '(' :: (text ++ byte ')' :: block)))
  | conditional {condition : Expr} {body : List Stmt} {others : List (Expr × List Stmt)}
      {before text after block further : List UInt8} (blankBefore : Blank before)
      (argument : Written 0 condition text) (blankAfter : Blank after)
      (braces : WrittenBody body block) (following : WrittenBranches others further) :
      WrittenStmt (.conditional condition body others)
        (byte '#' :: (ifWord ++ byte '(' :: (before ++ text ++ after ++ byte ')' ::
          (block ++ further))))
  | loop (key : Key) {data : Expr} {body : List Stmt}
      {first second third text after block : List UInt8} (blankFirst : Blank first)
      (blankSecond : Blank second) (some : second ≠ []) (blankThird : Blank third)
      (some' : third ≠ []) (source : Written 0 data text) (blankAfter : Blank after)
      (braces : WrittenBody body block) :
      WrittenStmt (.loop key data body)
        (byte '#' :: (forWord ++ byte '(' :: (first ++ key.bytes ++ second ++ inWord ++ third ++
          text ++ after ++ byte ')' :: block)))
  | embed {path : Expr} {before text after : List UInt8} (blankBefore : Blank before)
      (argument : Written 0 path text) (blankAfter : Blank after) :
      WrittenStmt (.embed path)
        (byte '#' :: (embedWord ++ byte '(' :: (before ++ text ++ after ++ [byte ')'])))

/-- The bytes write the statements as a body. -/
inductive WrittenBody : List Stmt → List UInt8 → Prop
  | braces {body : List Stmt} {gap text : List UInt8} (blank : LineBlank gap)
      (inside : WrittenStmts body text) :
      WrittenBody body (gap ++ byte '\x7b' :: (text ++ [byte '\x7d']))

/-- The bytes write the further branches of a conditional. -/
inductive WrittenBranches : List (Expr × List Stmt) → List UInt8 → Prop
  | none : WrittenBranches [] []
  | elseIf {condition : Expr} {body : List Stmt} {others : List (Expr × List Stmt)}
      {first second third before text after block further : List UInt8}
      (blankFirst : LineBlank first) (blankSecond : LineBlank second)
      (blankThird : LineBlank third) (blankBefore : Blank before)
      (argument : Written 0 condition text) (blankAfter : Blank after)
      (braces : WrittenBody body block) (following : WrittenBranches others further) :
      WrittenBranches ((condition, body) :: others)
        (first ++ elseWord ++ second ++ ifWord ++ third ++ byte '(' ::
          (before ++ text ++ after ++ byte ')' :: (block ++ further)))
  | otherwise {body : List Stmt} {gap block : List UInt8} (blank : LineBlank gap)
      (braces : WrittenBody body block) :
      WrittenBranches [(.bool true, body)] (gap ++ elseWord ++ block)

/-- The bytes write the statements one after the other. -/
inductive WrittenStmts : List Stmt → List UInt8 → Prop
  | nil : WrittenStmts [] []
  | cons {s : Stmt} {rest : List Stmt} {text others : List UInt8} (first : WrittenStmt s text)
      (following : WrittenStmts rest others) : WrittenStmts (s :: rest) (text ++ others)

end

mutual

/-- Every statement can be written. -/
theorem Stmt.exists_written : ∀ s : Stmt, ∃ text, WrittenStmt s text
  | .raw data => ⟨_, .raw data⟩
  | .print e => by
    obtain ⟨text, written⟩ := e.exists_written
    exact ⟨_, .print blank_nil (written.loosen (by decide)) blank_nil⟩
  | .tag name parameters none => by
    obtain ⟨text, inside⟩ := Expr.exists_writtenArguments parameters
    exact ⟨_, .tag name inside⟩
  | .tag name parameters (some body) => by
    obtain ⟨text, inside⟩ := Expr.exists_writtenArguments parameters
    obtain ⟨block, braces⟩ := Stmt.exists_writtenBody body
    exact ⟨_, .tagWithBody name inside braces⟩
  | .conditional condition body others => by
    obtain ⟨text, written⟩ := condition.exists_written
    obtain ⟨block, braces⟩ := Stmt.exists_writtenBody body
    obtain ⟨further, following⟩ := Stmt.exists_writtenBranches others
    exact ⟨_, .conditional blank_nil (written.loosen (by decide)) blank_nil braces following⟩
  | .loop key data body => by
    obtain ⟨text, written⟩ := data.exists_written
    obtain ⟨block, braces⟩ := Stmt.exists_writtenBody body
    exact ⟨_, .loop key blank_nil blank_space (List.cons_ne_nil _ _) blank_space
      (List.cons_ne_nil _ _) (written.loosen (by decide)) blank_nil braces⟩
  | .embed path => by
    obtain ⟨text, written⟩ := path.exists_written
    exact ⟨_, .embed blank_nil (written.loosen (by decide)) blank_nil⟩

/-- Every body can be written. -/
theorem Stmt.exists_writtenBody (body : List Stmt) : ∃ block, WrittenBody body block := by
  obtain ⟨text, inside⟩ := Stmt.exists_writtenStmts body
  exact ⟨_, .braces lineBlank_nil inside⟩

/-- All further branches can be written. -/
theorem Stmt.exists_writtenBranches :
    ∀ others : List (Expr × List Stmt), ∃ further, WrittenBranches others further
  | [] => ⟨_, .none⟩
  | (condition, body) :: others => by
    obtain ⟨text, written⟩ := condition.exists_written
    obtain ⟨block, braces⟩ := Stmt.exists_writtenBody body
    obtain ⟨further, following⟩ := Stmt.exists_writtenBranches others
    exact ⟨_, .elseIf lineBlank_nil lineBlank_nil lineBlank_nil blank_nil
      (written.loosen (by decide)) blank_nil braces following⟩

/-- All statements can be written one after the other. -/
theorem Stmt.exists_writtenStmts : ∀ stmts : List Stmt, ∃ text, WrittenStmts stmts text
  | [] => ⟨_, .nil⟩
  | s :: rest => by
    obtain ⟨text, first⟩ := s.exists_written
    obtain ⟨others, following⟩ := Stmt.exists_writtenStmts rest
    exact ⟨_, .cons first following⟩

end

end Stencil.Grammar.Kit
