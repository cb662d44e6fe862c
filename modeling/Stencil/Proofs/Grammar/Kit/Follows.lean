import Stencil.Proofs.Grammar.Kit.RawText
import Stencil.Proofs.Grammar.Kit.Statements

/-! # What may follow a statement

The scanner of raw text, the look for a body and the look for a further branch decide on their own
where a statement ends. What follows a proper statement is the end, a closing brace, a tag, or raw
text before one of these, and none of the three goes on there.
-/

namespace Stencil.Grammar.Kit

/-- Here ends what is read, or a tag begins. -/
def Stops (inBody : Bool) (rest : List UInt8) : Prop :=
  rest = [] ∨ inBody = true ∧ rest.head? = some (byte '\x7d') ∨ tagAhead rest = true

theorem head_of_tagAhead {rest : List UInt8} (ahead : tagAhead rest = true) :
    rest.head? = some (byte '#') := by
  match rest, ahead with
  | hash :: b :: more, ahead =>
    simp only [tagAhead, Bool.and_eq_true, beq_iff_eq] at ahead
    rw [List.head?_cons, ahead.1]

namespace Stops

variable {inBody : Bool} {rest : List UInt8}

/-- What stops raw text is the end, a brace or a hash. -/
theorem head (stops : Stops inBody rest) : ∀ b ∈ rest.head?, b = byte '\x7d' ∨ b = byte '#' := by
  rcases stops with rfl | ⟨-, close⟩ | ahead
  · rintro _ ⟨⟩
  · rintro _ first
    exact .inl (Option.some.inj (first.symm.trans close))
  · rintro _ first
    exact .inr (Option.some.inj (first.symm.trans (head_of_tagAhead ahead)))

theorem rawEnds (stops : Stops inBody rest) : rest = [] ∨ rawEnds inBody rest = true := by
  rcases stops with rfl | ⟨inside, close⟩ | ahead
  · exact .inl rfl
  · exact .inr (by simp [Kit.rawEnds, inside, close])
  · exact .inr (by simp [Kit.rawEnds, ahead])

theorem afterLineBlanks (stops : Stops inBody rest) (data : List UInt8) :
    afterLineBlanks (data ++ rest) = Kit.afterLineBlanks data ++ rest := by
  have own : rest.dropWhile Text.isLineBlank = rest := by
    cases rest with
    | nil => rfl
    | cons b more =>
      refine List.dropWhile_cons_of_neg ?_
      rcases stops.head b rfl with rfl | rfl <;> decide
  rw [Kit.afterLineBlanks, List.dropWhile_append, own]
  split
  · rename_i empty
    rw [Kit.afterLineBlanks, List.isEmpty_iff.mp empty, List.nil_append]
  · rfl

/-- No body follows where none is opened. -/
theorem bodyAhead (stops : Stops inBody rest) {data : List UInt8} (unopened : byte '\x7b' ∉ data) :
    bodyAhead (data ++ rest) = false := by
  rw [Kit.bodyAhead, stops.afterLineBlanks]
  cases left : Kit.afterLineBlanks data with
  | nil =>
    cases rest with
    | nil => rfl
    | cons b more => rcases stops.head b rfl with rfl | rfl <;> rfl
  | cons b more =>
    have member : b ∈ data := (List.dropWhile_sublist _).subset (left ▸ List.mem_cons_self)
    have other : b ≠ byte '\x7b' := fun same => unopened (same ▸ member)
    simpa using other

end Stops

/-- A word that text does not begin with begins in it only by going on behind it. -/
theorem isPrefixOf_append {word data rest : List UInt8} (not : word.isPrefixOf data = false)
    (apart : ∀ b ∈ rest.head?, b ∉ word) : word.isPrefixOf (data ++ rest) = false := by
  induction word generalizing data with
  | nil => contradiction
  | cons w word ih =>
    cases data with
    | nil =>
      cases rest with
      | nil => rfl
      | cons b more =>
        have other : w ≠ b := fun same => apart b rfl (same ▸ List.mem_cons_self)
        rw [List.nil_append, List.isPrefixOf_cons_cons, beq_eq_false_iff_ne.mpr other, Bool.false_and]
    | cons d data =>
      rw [List.isPrefixOf_cons_cons] at not
      rw [List.cons_append, List.isPrefixOf_cons_cons]
      cases same : w == d with
      | false => rfl
      | true =>
        rw [same, Bool.true_and] at not
        rw [Bool.true_and]
        exact ih not fun b first member => apart b first (List.mem_cons_of_mem _ member)

/-- No further branch follows where its word is not written. -/
theorem Stops.branchAhead? {inBody : Bool} {rest : List UInt8} (stops : Stops inBody rest)
    {data : List UInt8} (without : elseWord.isPrefixOf (Kit.afterLineBlanks data) = false) :
    branchAhead? (data ++ rest) = none := by
  have none : elseWord.isPrefixOf (Kit.afterLineBlanks (data ++ rest)) = false := by
    rw [stops.afterLineBlanks]
    refine isPrefixOf_append without fun b first => ?_
    rcases stops.head b first with rfl | rfl <;> decide
  rw [Kit.branchAhead?, none, if_neg Bool.false_ne_true]

/-! ## Tags -/

/-- A hash, a name and a parenthesis open a tag. -/
theorem tagAhead_name {name rest : List UInt8} (opens : name.head?.any isLetter = true)
    (inside : ∀ b ∈ name, isNameByte b = true) :
    tagAhead (byte '#' :: (name ++ byte '(' :: rest)) = true := by
  cases name with
  | nil => contradiction
  | cons b name =>
    have letter : isLetter b = true := by simpa using opens
    have run : (name ++ byte '(' :: rest).dropWhile isNameByte = byte '(' :: rest := by
      rw [List.dropWhile_append_of_pos fun x member => inside x (List.mem_cons_of_mem _ member)]
      rfl
    simp [tagAhead, letter, run]

/-- Every statement but raw text begins with a tag. -/
theorem WrittenStmt.tagAhead {s : Stmt} {text : List UInt8} (written : WrittenStmt s text)
    (tag : ∀ data, s ≠ .raw data) (rest : List UInt8) : tagAhead (text ++ rest) = true := by
  cases written with
  | raw data => exact absurd rfl (tag data)
  | print => rfl
  | tag name | tagWithBody name =>
    rw [List.cons_append, List.append_assoc, List.cons_append]
    exact tagAhead_name name.opens name.inside
  | conditional | loop | embed => rfl

/-- What is behind a statement, up to where raw text ends: raw text or nothing. -/
theorem WrittenStmts.stops {inBody : Bool} {stmts : List Stmt} {text rest : List UInt8}
    (written : WrittenStmts stmts text) (behind : Stops inBody rest)
    (tag : ∀ s ∈ stmts.head?, ∀ data, s ≠ .raw data) : Stops inBody (text ++ rest) := by
  cases written with
  | nil => exact behind
  | cons first following =>
    rw [List.append_assoc]
    exact .inr (.inr (first.tagAhead (tag _ rfl) _))

/-- What follows a statement lets it end there. -/
def Stmt.Follows (inBody : Bool) (rest : List UInt8) : Stmt → Prop
  | raw _ => rest = [] ∨ rawEnds inBody rest = true
  | tag _ _ none => bodyAhead rest = false
  | conditional .. => branchAhead? rest = none
  | _ => True

/-- Any statement may end where raw text stops. -/
theorem Stops.follows {inBody : Bool} {rest : List UInt8} (stops : Stops inBody rest) (s : Stmt) :
    s.Follows inBody rest := by
  cases s with
  | raw => exact stops.rawEnds
  | tag _ _ body =>
    cases body with
    | none => exact stops.bodyAhead (List.not_mem_nil)
    | some => trivial
  | conditional => exact @Stops.branchAhead? _ _ stops [] rfl
  | print | loop | embed => trivial

/-- Raw text lets the statement before it end when it may stand behind it. -/
theorem Stops.follows_raw {inBody : Bool} {rest : List UInt8} (stops : Stops inBody rest) {s : Stmt}
    {data : RawText} (joins : s.Joins (.raw data)) : s.Follows inBody (data.bytes ++ rest) := by
  cases s with
  | raw => exact False.elim joins
  | tag _ _ body =>
    cases body with
    | none => exact stops.bodyAhead data.unopened
    | some => trivial
  | conditional => exact stops.branchAhead? joins
  | print | loop | embed => trivial

/-- Proper statements let the statement before them end. -/
theorem WrittenStmts.follows {inBody : Bool} {s : Stmt} {stmts : List Stmt}
    {text rest : List UInt8} (written : WrittenStmts stmts text) (proper : Stmt.ProperAll stmts)
    (joins : ∀ s' ∈ stmts.head?, s.Joins s') (behind : Stops inBody rest) :
    s.Follows inBody (text ++ rest) := by
  by_cases raw : ∃ data more, stmts = .raw data :: more
  · obtain ⟨data, more, rfl⟩ := raw
    obtain ⟨-, apart, -⟩ := proper
    rcases written with _ | ⟨⟨⟩, following⟩
    rw [List.append_assoc]
    refine (following.stops behind ?_).follows_raw (joins _ rfl)
    rintro s' first data' rfl
    exact apart _ first
  · refine (written.stops behind ?_).follows s
    rintro s' first data rfl
    obtain ⟨more, same⟩ := List.head?_eq_some_iff.mp first
    exact raw ⟨data, more, same⟩

end Stencil.Grammar.Kit
