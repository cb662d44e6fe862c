import Stencil.Proofs.Grammar.Kit.Templates
import Stencil.Proofs.Rendering.Choices

/-! # Chains of branches from text to text

A chain of branches is written with a last branch that has no condition, is read as a list whose
last condition is the truth, and is evaluated branch by branch. Put together these are the usual
meaning of the words: the first branch whose condition is truthy is rendered, and else the last.
Nothing is asked of a condition and of a body but that the grammar reads them to where they are
closed.
-/

namespace Stencil.Grammar.Kit

open Routine (Runs)

/-- Branches with their conditions, and one more for the case that none of these holds, which stands
under a condition that always does. -/
def chained (place : Source) (tests : List (Node × List Node)) (otherwise : Option (List Node)) :
    List (Node × List Node) :=
  tests ++ (otherwise.map fun body => (.literal place (.bool true), body)).toList

/-! ## How a chain is written -/

/-- The text is read as the condition wherever it stands in parentheses. -/
def ReadsCondition (condition : Node) (text : List UInt8) : Prop :=
  ∀ (buffer : Buffer) (construct : Construct) (start : Position) (c : Cursor buffer)
    (rest : List UInt8), c.rest = byte '(' :: (text ++ byte ')' :: rest) →
      Reads (oneArgument construct start c) fun value next =>
        value.bare = condition ∧ next.rest = rest

/-- The text is read as the nodes wherever it stands in braces. -/
def ReadsBlock (block : List Node) (text : List UInt8) : Prop :=
  ∀ (buffer : Buffer) (start : Position) (c : Cursor buffer) (rest : List UInt8),
    c.rest = text ++ byte '\x7d' :: rest →
      Reads (nodes (some start) c) fun values next =>
        Node.bareAll values = block ∧ next.rest = rest

/-- What is readable as an expression is read as a condition, with blanks around it. -/
theorem Readable.readsCondition {condition : Node} {before text after : List UInt8}
    (blankBefore : Blank before) (readable : Readable 0 (fun value => value.bare = condition) text)
    (blankAfter : Blank after) : ReadsCondition condition (before ++ text ++ after) :=
  fun _ construct start _ _ there =>
    reads_oneArgument blankBefore readable blankAfter construct start there

/-- Statements that are read are so in braces. -/
theorem ReadsStmts.readsBlock {body : List Stmt} {text : List UInt8} (read : ReadsStmts body text) :
    ReadsBlock (Stmt.nodes body) text :=
  fun buffer start c rest there => read buffer (some start) c _ rest there rfl

inductive WrittenBlock (block : List Node) : List UInt8 → Prop
  | braces {gap text : List UInt8} (blank : LineBlank gap) (inside : ReadsBlock block text) :
      WrittenBlock block (gap ++ byte '\x7b' :: (text ++ [byte '\x7d']))

/-- The bytes write the tests that follow the first of a chain, and its last branch. -/
inductive WrittenTests : List (Node × List Node) → Option (List Node) → List UInt8 → Prop
  | none : WrittenTests [] none []
  | otherwise {block : List Node} {gap text : List UInt8} (blank : LineBlank gap)
      (braces : WrittenBlock block text) : WrittenTests [] (some block) (gap ++ elseWord ++ text)
  | elseIf {condition : Node} {block : List Node} {tests : List (Node × List Node)}
      {otherwise : Option (List Node)} {first second third test text further : List UInt8}
      (blankFirst : LineBlank first) (blankSecond : LineBlank second) (blankThird : LineBlank third)
      (argument : ReadsCondition condition test) (braces : WrittenBlock block text)
      (following : WrittenTests tests otherwise further) :
      WrittenTests ((condition, block) :: tests) otherwise
        (first ++ elseWord ++ second ++ ifWord ++ third ++ byte '(' ::
          (test ++ byte ')' :: (text ++ further)))

inductive WrittenChain : List (Node × List Node) → Option (List Node) → List UInt8 → Prop
  | tests {condition : Node} {block : List Node} {tests : List (Node × List Node)}
      {otherwise : Option (List Node)} {test text further : List UInt8}
      (argument : ReadsCondition condition test) (braces : WrittenBlock block text)
      (following : WrittenTests tests otherwise further) :
      WrittenChain ((condition, block) :: tests) otherwise
        (byte '#' :: (ifWord ++ byte '(' :: (test ++ byte ')' :: (text ++ further))))

/-! ## Reading -/

theorem exists_conditional_of_bare {value condition : Node} {body : List Node}
    {others : List (Node × List Node)}
    (same : value.bare = .conditional nowhere condition body others) :
    ∃ source test block tests, value = .conditional source test block tests ∧
      test.bare = condition ∧ Node.bareAll block = body ∧ Node.bareBranches tests = others := by
  cases value with
  | conditional source test block tests =>
    cases same
    exact ⟨source, test, block, tests, rfl, rfl, rfl, rfl⟩
  | tag source name parameters block => cases block <;> cases same
  | _ => cases same

theorem exists_literal_of_bare {value : Node} {constant : Literal}
    (same : value.bare = .literal nowhere constant) : ∃ place, value = .literal place constant := by
  cases value with
  | literal place other =>
    cases same
    exact ⟨place, rfl⟩
  | tag source name parameters block => cases block <;> cases same
  | _ => cases same

/-- Branches of the form of a chain are one. -/
theorem exists_chained_of_bare {values tests : List (Node × List Node)}
    {otherwise : Option (List Node)}
    (same : Node.bareBranches values = chained nowhere tests otherwise) :
    ∃ place tests' fallback, values = chained place tests' fallback ∧
      Node.bareBranches tests' = tests ∧ fallback.map Node.bareAll = otherwise := by
  induction tests generalizing values with
  | nil =>
    cases otherwise with
    | none =>
      cases values with
      | nil => exact ⟨nowhere, [], none, rfl, rfl, rfl⟩
      | cons => cases same
    | some body =>
      cases values with
      | nil => cases same
      | cons value values =>
        obtain ⟨condition, block⟩ := value
        obtain ⟨first, rest⟩ := List.cons.inj same
        obtain ⟨test, inside⟩ := Prod.mk.inj first
        obtain ⟨place, rfl⟩ := exists_literal_of_bare test
        cases values with
        | cons => cases rest
        | nil => exact ⟨place, [], some block, rfl, rfl, congrArg some inside⟩
  | cons test tests ih =>
    cases values with
    | nil => cases same
    | cons value values =>
      obtain ⟨first, rest⟩ := List.cons.inj same
      obtain ⟨place, tests', fallback, rfl, tested, left⟩ := ih rest
      refine ⟨place, value :: tests', fallback, rfl, ?_, left⟩
      rw [Node.bareBranches, first, tested]

/-- A written block is read as its nodes. -/
theorem WrittenBlock.reads {block : List Node} {text : List UInt8}
    (written : WrittenBlock block text) {buffer : Buffer} {construct : Construct} {start : Position}
    {c : Cursor buffer} {rest : List UInt8} (there : c.rest = text ++ rest) :
    Reads (requiredBody construct start c) fun values next =>
      Node.bareAll values = block ∧ next.rest = rest := by
  obtain ⟨blank, inside⟩ := written
  rw [List.append_assoc, List.cons_append, List.append_assoc] at there
  refine reads_requiredBody (there ▸ bodyAhead_braces blank _) (reads_body blank there ?_)
  exact fun start c' after => inside buffer start c' rest after

/-- Written tests are read as their branches, up to the end. -/
theorem WrittenTests.reads {tests : List (Node × List Node)} {otherwise : Option (List Node)}
    {text : List UInt8} (written : WrittenTests tests otherwise text) {buffer : Buffer}
    {c : Cursor buffer} (there : c.rest = text) :
    Reads (branches c) fun values next =>
      Node.bareBranches values = chained nowhere tests otherwise ∧ next.rest = [] := by
  induction written generalizing c with
  | none =>
    refine (reads_branches_none (there ▸ rfl)).imp ?_
    rintro _ next ⟨rfl, rests⟩
    exact ⟨rfl, rests.trans there⟩
  | otherwise blank braces =>
    obtain ⟨blank', inside⟩ := braces
    rw [← List.append_assoc] at there
    refine reads_branches_otherwise blank blank' there fun start c' after => ?_
    exact (WrittenBlock.braces lineBlank_nil inside).reads (after.trans (by simp))
  | elseIf blankFirst blankSecond blankThird argument braces _ ih =>
    refine reads_branches_elseIf blankFirst blankSecond blankThird (there.trans (by simp))
      (fun start c' opened => argument buffer _ start c' _ opened)
      (fun start c' behind => braces.reads behind) fun c' behind => ih behind

/-- A written chain is read as one conditional with the same branches in the same order. -/
theorem parse_chained (file : String) {tests : List (Node × List Node)}
    {otherwise : Option (List Node)} {text : List UInt8}
    (written : WrittenChain tests otherwise text) :
    ∃ source place test block tests' fallback,
      parse ⟨file, text⟩ =
        .ok [.conditional source test block (chained place tests' fallback)] ∧
      Node.bareBranches ((test, block) :: tests') = tests ∧
      fallback.map Node.bareAll = otherwise := by
  obtain ⟨argument, braces, following⟩ := written
  rename_i condition body tests test block further
  let buffer : Buffer :=
    ⟨file, byte '#' :: (ifWord ++ byte '(' :: (test ++ byte ')' :: (block ++ further)))⟩
  have left : (Cursor.start buffer).rest ≠ [] := List.cons_ne_nil _ _
  have read : Reads (nodes none (Cursor.start buffer)) fun values _ =>
      ∃ value, values = [value] ∧
        value.bare = .conditional nowhere condition body (chained nowhere tests otherwise) := by
    refine reads_nodes_cons left (by simp) (reads_unit_tag left rfl
      (reads_tag_conditional left rfl
        (fun start c opened => argument buffer _ start c _ opened)
        (fun start c behind => braces.reads behind)
        fun c behind => following.reads behind)) ?_
    rintro value next ⟨same, atEnd⟩
    refine (reads_nodes_end atEnd).imp ?_
    rintro _ last ⟨rfl, -⟩
    exact ⟨value, rfl, same⟩
  obtain ⟨_, parsed, value, rfl, same⟩ := parse_of_reads read
  obtain ⟨source, test, block, branches, rfl, tested, inside, further⟩ :=
    exists_conditional_of_bare same
  obtain ⟨place, tests', fallback, rfl, others, last⟩ := exists_chained_of_bare further
  refine ⟨source, place, test, block, tests', fallback, parsed, ?_, last⟩
  rw [Node.bareBranches, tested, inside, others]

/-! ## Rendering -/

/-- A chain of branches does what its words say. Whatever the conditions, the bodies and the last
branch are, and in whatever way they are written, the chain is read as its branches in their order.
Its nodes have a run, and in every run, on any data, with any tags and whatever others do meanwhile,
the conditions are evaluated in this order and once each, on the data and the store that the one
before left, up to the first that fails or is truthy. If one fails so does the chain. If one is
truthy its body is rendered on a copy of the entries as they are then, and nothing behind it has any
part in this. If none is, this is done with the last branch when there is one, and otherwise nothing
is printed. The data are left as the conditions left them. -/
theorem conditional_chooses (file : String) {tests : List (Node × List Node)}
    {otherwise : Option (List Node)} {text : List UInt8}
    (written : WrittenChain tests otherwise text) :
    ∃ source place test block tests' fallback,
      parse ⟨file, text⟩ =
        .ok [.conditional source test block (chained place tests' fallback)] ∧
      Node.bareBranches ((test, block) :: tests') = tests ∧
      fallback.map Node.bareAll = otherwise ∧
      ∀ (scope : Scope) (may : Store → Store → Prop) (data : Value) (s : Store),
        ((∀ s, may s s) → ∃ result left t,
          Runs may ((scope.serialize [.conditional source test block
            (chained place tests' fallback)]).runOn data) s (result, left) t) ∧
        ∀ (result : Except Error String) (left : Value) (t : Store),
          Runs may ((scope.serialize [.conditional source test block
            (chained place tests' fallback)]).runOn data) s (result, left) t →
          ∃ decision between,
            scope.Decides may ((test, block) :: tests') data s decision left between ∧
            match decision, fallback with
            | .error why, _ => result = .error why ∧ t = between
            | .ok (.once chosen), _ =>
              scope.PrintsApart may source chosen left between result t ∧
                ∃ before taken rest, (test, block) :: tests' = before ++ (taken, chosen) :: rest ∧
                  ∀ rest', scope.Decides may (before ++ (taken, chosen) :: rest') data s
                    (.ok (.once chosen)) left between
            | .ok _, some chosen => scope.PrintsApart may source chosen left between result t
            | .ok _, none => result = .ok "" ∧ t = between := by
  obtain ⟨source, place, test, block, tests', fallback, parsed, same, last⟩ :=
    parse_chained file written
  refine ⟨source, place, test, block, tests', fallback, parsed, same, last, ?_⟩
  intro scope may data s
  refine ⟨fun idle => ?_, fun result left t run => ?_⟩
  · obtain ⟨⟨result, left⟩, t, run⟩ := Runs.exists_of_refl idle ((scope.serialize
      [.conditional source test block (chained place tests' fallback)]).runOn data) s
    exact ⟨result, left, t, run⟩
  · obtain ⟨decision, between, decided, ended⟩ := Scope.runs_conditional run
    rw [chained, ← List.cons_append] at decided
    rcases decided.of_append with ⟨decides, some⟩ | ⟨middle, store, none, decides⟩
    · refine ⟨decision, between, decides, ?_⟩
      cases decision with
      | error why => exact ended
      | ok plan =>
        cases plan with
        | nothing => exact (some rfl).elim
        | once chosen => exact ⟨ended, decides.rest_irrelevant⟩
        | each => exact (decides.not_each rfl).elim
    · cases fallback with
      | none =>
        cases decides
        exact ⟨_, _, none, ended⟩
      | some chosen =>
        obtain ⟨rfl, rfl, rfl⟩ := decides.of_true
        exact ⟨_, _, none, ended⟩

private def decidingText : List UInt8 :=
  "#if(set(\"x\",true))\x7b\x7d else if(x)\x7b#(x)\x7d else \x7b\x7d".toList.map byte

private def decidingSource (column stop : Nat) : Source :=
  ⟨"page", 0, column, column, stop, decidingText⟩

private def decidingWrite : Node :=
  .tag (decidingSource 4 17) "set" [.literal (decidingSource 8 11) (.string "x"),
    .literal (decidingSource 12 16) (.bool true)] none

private def decidingRead (column stop : Nat) : Node :=
  .identifier (decidingSource column stop) ⟨[.key "x"]⟩

private def decidingPrint : List Node :=
  [.tag (decidingSource 32 36) "" [decidingRead 34 35] none]

private def decidingNodes : List Node :=
  [.conditional (decidingSource 0 45) decidingWrite []
    [(decidingRead 29 30, decidingPrint), (.literal (decidingSource 43 45) (.bool true), [])]]

private def decidingScope : Scope := ⟨Tags.builtin, .unavailable, 0⟩

private def pathX : Identifier := letter 'x' (by decide) (by decide) (by decide)

private def callSet : CallName where
  bytes := "set".toList.map byte
  opens := by decide
  inside := by decide
  whole := by decide

private theorem decidingText_written :
    WrittenChain [((Expr.call callSet [.string "x", .bool true]).node, Stmt.nodes []),
      ((Expr.path pathX).node, Stmt.nodes [.print (.path pathX)])] (some (Stmt.nodes []))
      decidingText := by
  have space : LineBlank [byte ' '] := by
    rintro _ (_ | ⟨_, ⟨⟩⟩)
    decide
  have path : Written 0 (.path pathX) [byte 'x'] := (Written.path pathX).loosen (by decide)
  have write : Written 0 (.call callSet [.string "x", .bool true])
      ("set(\"x\",true)".toList.map byte) :=
    (Written.call callSet (@WrittenArguments.more _ _ _ [] _ [] _ blank_nil
      ((Written.string "x").loosen (by decide)) blank_nil
      (@WrittenArguments.last _ [] _ [] blank_nil ((Written.bool true).loosen (by decide))
        blank_nil))).loosen (by decide)
  have printed := WrittenStmts.cons (.print blank_nil path blank_nil) .nil
  have empty := WrittenBlock.braces space ReadsStmts.nil.readsBlock
  exact .tests (@Readable.readsCondition _ [] _ [] blank_nil write.readable blank_nil)
    (.braces lineBlank_nil ReadsStmts.nil.readsBlock)
    (@WrittenTests.elseIf _ _ _ _ _ _ [] _ _ _ space space lineBlank_nil
      (@Readable.readsCondition _ [] _ [] blank_nil path.readable blank_nil)
      (.braces lineBlank_nil (printed.reads ⟨trivial, nofun, trivial⟩).readsBlock)
      (.otherwise space empty))

/-- The first condition writes an entry and is not truthy. The second reads the entry and decides,
on the data with that entry. -/
theorem conditional_chooses_elseIf :
    parse ⟨"page", decidingText⟩ = .ok decidingNodes ∧
      ∀ (may : Store → Store → Prop) (left : Value) (s t : Store) (result : Except Error String),
        Runs may ((decidingScope.serialize decidingNodes).runOn .null) s (result, left) t →
          left = .map [("x", .bool true)] ∧
            decidingScope.PrintsApart may (decidingSource 0 45) decidingPrint left s result t := by
  obtain ⟨source, place, test, block, tests, fallback, parsed, same, last, run⟩ :=
    conditional_chooses "page" decidingText_written
  have read : parse ⟨"page", decidingText⟩ = .ok decidingNodes := by cbv
  obtain ⟨fallback, rfl, -⟩ := Option.map_eq_some_iff.mp last
  have whole := Except.ok.inj (read.symm.trans parsed)
  obtain ⟨rfl, rfl, rfl, branches⟩ := Node.conditional.inj (List.cons.inj whole).1
  obtain ⟨rfl, -⟩ := List.append_inj' (show tests ++ [(_, fallback)] =
    [(decidingRead 29 30, decidingPrint)] ++ [_] from branches.symm) rfl
  have writes : (resolved (decidingScope.render decidingWrite)).runOn .null =
      .done (.ok .null, .map [("x", .bool true)]) := by rfl
  have reads : (resolved (decidingScope.render (decidingRead 29 30))).runOn
      (.map [("x", .bool true)]) = .done (.ok (.bool true), .map [("x", .bool true)]) := by rfl
  refine ⟨read, fun may left s t result ended => ?_⟩
  rw [whole] at ended
  obtain ⟨decision, between, decided, ended⟩ :=
    (run decidingScope may .null s).2 result left t ended
  obtain ⟨rfl, rfl, rfl⟩ := (decided.of_falsy writes rfl).of_truthy reads rfl
  exact ⟨rfl, ended.1⟩

end Stencil.Grammar.Kit
