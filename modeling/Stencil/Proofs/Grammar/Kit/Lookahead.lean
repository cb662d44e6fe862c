import Stencil.Proofs.Grammar.Kit.TagRules

/-! # Looking ahead in front of a bracket

Names, numbers, blanks, operators and the words of branches and loops all end in front of a
parenthesis or brace that closes something. So no look ahead of the kit grammar goes on behind such
a bracket, and in bytes that end with one it decides the same whatever stands behind them.
-/

namespace Stencil.Grammar.Kit

/-- The byte closes what a parenthesis or a brace has opened. -/
def Closes (b : UInt8) : Prop := b = byte ')' ∨ b = byte '\x7d'

instance : DecidablePred Closes := fun b =>
  inferInstanceAs (Decidable (b = byte ')' ∨ b = byte '\x7d'))

namespace Closes

theorem not_isNameByte (b : UInt8) (closes : Closes b) : isNameByte b = false := by
  rcases closes with rfl | rfl <;> decide

theorem not_isWordByte (b : UInt8) (closes : Closes b) : isWordByte b = false := by
  rcases closes with rfl | rfl <;> decide

theorem not_isDigit (b : UInt8) (closes : Closes b) : isDigit b = false := by
  rcases closes with rfl | rfl <;> decide

theorem not_isLineBlank (b : UInt8) (closes : Closes b) : Text.isLineBlank b = false := by
  rcases closes with rfl | rfl <;> decide

theorem not_isAsciiBlank (b : UInt8) (closes : Closes b) : Text.isAsciiBlank b = false := by
  rcases closes with rfl | rfl <;> decide

theorem not_mem_ifWord : ∀ b ∈ ifWord, ¬ Closes b := by decide

theorem not_mem_elseWord : ∀ b ∈ elseWord, ¬ Closes b := by decide

theorem not_mem_inWord : ∀ b ∈ inWord, ¬ Closes b := by decide

theorem not_mem_token (op : InfixOp) : ∀ b ∈ op.token, ¬ Closes b := by cases op <;> decide

end Closes

/-- The bytes end with one that closes. -/
inductive Shut : List UInt8 → Prop
  | last {b : UInt8} (closes : Closes b) : Shut [b]
  | cons (b : UInt8) {rest : List UInt8} (shut : Shut rest) : Shut (b :: rest)

namespace Shut

variable {rest word : List UInt8} {p : UInt8 → Bool}

theorem ne_nil (shut : Shut rest) : rest ≠ [] := by cases shut <;> exact List.cons_ne_nil _ _

theorem append (front : List UInt8) (shut : Shut rest) : Shut (front ++ rest) := by
  induction front with
  | nil => exact shut
  | cons b front ih => exact .cons b ih

/-- What is left of a text that is shut is so too, unless nothing is left. -/
theorem of_append {front : List UInt8} (shut : Shut (front ++ rest)) (left : rest ≠ []) :
    Shut rest := by
  induction front with
  | nil => exact shut
  | cons b front ih =>
    rw [List.cons_append] at shut
    generalize whole : front ++ rest = bytes at shut ih
    cases shut with
    | last => exact absurd (List.append_eq_nil_iff.mp whole).2 left
    | cons _ shut => exact ih shut

/-- A text that is shut has a bracket. -/
theorem exists_closes (shut : Shut rest) : ∃ b ∈ rest, Closes b := by
  induction shut with
  | last closes => exact ⟨_, List.mem_singleton_self _, closes⟩
  | cons _ _ ih => exact ih.imp fun _ => And.imp_left (List.mem_cons_of_mem _)

/-- The first byte of a text that is shut is its own. -/
theorem head?_append (shut : Shut rest) (behind : List UInt8) :
    (rest ++ behind).head? = rest.head? := by
  obtain ⟨b, more, rfl⟩ := List.exists_cons_of_ne_nil shut.ne_nil
  rfl

/-! ## Runs and words -/

theorem dropWhile (shut : Shut rest) (apart : ∀ b, Closes b → p b = false) :
    Shut (rest.dropWhile p) := by
  induction shut with
  | last closes =>
    rw [List.dropWhile_cons_of_neg (by simp [apart _ closes])]
    exact .last closes
  | cons b shut ih =>
    rw [List.dropWhile_cons]
    split
    · exact ih
    · exact .cons b shut

/-- A run of other bytes ends within a text that is shut. -/
theorem dropWhile_append (shut : Shut rest) (apart : ∀ b, Closes b → p b = false)
    (behind : List UInt8) : (rest ++ behind).dropWhile p = rest.dropWhile p ++ behind := by
  have left := (shut.dropWhile apart).ne_nil
  rw [List.dropWhile_append, if_neg (by simpa using left)]

theorem takeWhile_append (shut : Shut rest) (apart : ∀ b, Closes b → p b = false)
    (behind : List UInt8) : (rest ++ behind).takeWhile p = rest.takeWhile p := by
  induction shut with
  | last closes => simp [apart _ closes]
  | cons b _ ih => rw [List.cons_append, List.takeWhile_cons, List.takeWhile_cons, ih]

/-- A word without brackets is ahead of a text that is shut just when it is of the whole. -/
theorem isPrefixOf_append (shut : Shut rest) (apart : ∀ b ∈ word, ¬ Closes b)
    (behind : List UInt8) : word.isPrefixOf (rest ++ behind) = word.isPrefixOf rest := by
  induction word generalizing rest with
  | nil => simp
  | cons w word ih =>
    obtain ⟨inside, apart⟩ := List.forall_mem_cons.mp apart
    cases shut with
    | @last b closes =>
      have other : (w == b) = false := beq_eq_false_iff_ne.mpr fun same => inside (same ▸ closes)
      rw [List.cons_append, List.isPrefixOf_cons_cons, List.isPrefixOf_cons_cons, other,
        Bool.false_and, Bool.false_and]
    | cons b shut =>
      rw [List.cons_append, List.isPrefixOf_cons_cons, List.isPrefixOf_cons_cons, ih shut apart]

/-- Behind a word that closes nothing the bytes go on. -/
theorem behind_word (shut : Shut (word ++ rest)) (apart : ∀ b ∈ word, ¬ Closes b) :
    Shut rest := by
  refine shut.of_append ?_
  rintro rfl
  obtain ⟨b, member, closes⟩ := shut.exists_closes
  exact apart b (List.append_nil word ▸ member) closes

/-! ## Tags, bodies and branches -/

variable (behind : List UInt8)

theorem escapeAhead_append (shut : Shut rest) :
    escapeAhead (rest ++ behind) = escapeAhead rest := by
  cases shut with
  | last closes => rcases closes with rfl | rfl <;> cases behind <;> rfl
  | cons b shut =>
    obtain ⟨b', more, rfl⟩ := List.exists_cons_of_ne_nil shut.ne_nil
    rfl

/-- Whether a tag is ahead is decided within a text that is shut. -/
theorem tagAhead_append (shut : Shut rest) : tagAhead (rest ++ behind) = tagAhead rest := by
  rcases shut with closes | ⟨hash, shut⟩
  · rcases closes with rfl | rfl <;> cases behind <;> rfl
  rcases shut with closes | ⟨b, shut⟩
  · rename_i b
    have letter : isLetter b = false := by rcases closes with rfl | rfl <;> decide
    simp [tagAhead, letter]
  · rw [List.cons_append, List.cons_append, tagAhead, tagAhead,
      shut.dropWhile_append Closes.not_isNameByte,
      (shut.dropWhile Closes.not_isNameByte).head?_append]

theorem rawEnds_append (shut : Shut rest) (inBody : Bool) :
    rawEnds inBody (rest ++ behind) = rawEnds inBody rest := by
  rw [rawEnds, rawEnds, shut.head?_append, shut.escapeAhead_append, shut.tagAhead_append]

theorem afterLineBlanks_append (shut : Shut rest) :
    afterLineBlanks (rest ++ behind) = afterLineBlanks rest ++ behind :=
  shut.dropWhile_append Closes.not_isLineBlank behind

theorem afterLineBlanks (shut : Shut rest) : Shut (afterLineBlanks rest) :=
  shut.dropWhile Closes.not_isLineBlank

theorem bodyAhead_append (shut : Shut rest) : bodyAhead (rest ++ behind) = bodyAhead rest := by
  rw [bodyAhead, bodyAhead, shut.afterLineBlanks_append, shut.afterLineBlanks.head?_append]

/-- A word that closes nothing is told from the byte behind it. -/
theorem wordThen_append (shut : Shut rest) (apart : ∀ b ∈ word, ¬ Closes b) (p : UInt8 → Bool) :
    (word.isPrefixOf (rest ++ behind) && ((rest ++ behind)[word.length]?).any p) =
      (word.isPrefixOf rest && (rest[word.length]?).any p) := by
  rw [shut.isPrefixOf_append apart]
  cases ahead : word.isPrefixOf rest with
  | false => rfl
  | true =>
    obtain ⟨more, rfl⟩ := List.isPrefixOf_iff_prefix.mp ahead
    obtain ⟨b, more, rfl⟩ := List.exists_cons_of_ne_nil (shut.behind_word apart).ne_nil
    rw [List.append_assoc, List.getElem?_append_right (Nat.le_refl _),
      List.getElem?_append_right (Nat.le_refl _), Nat.sub_self]
    rfl

/-- Whether a branch opens is decided within a text that is shut. -/
theorem branchOpens_append (shut : Shut rest) :
    branchOpens (rest ++ behind) = branchOpens rest := by
  have conditional := shut.wordThen_append behind Closes.not_mem_ifWord opensCondition
  rw [branchOpens, branchOpens, shut.head?_append]
  exact congrArg (· || _) conditional

/-- The word before the source of a loop has a blank behind it. -/
theorem sourceAhead_append (shut : Shut rest) :
    (inWord.isPrefixOf (rest ++ behind) && ((rest ++ behind)[2]?).any Text.isAsciiBlank) =
      (inWord.isPrefixOf rest && (rest[2]?).any Text.isAsciiBlank) :=
  shut.wordThen_append behind Closes.not_mem_inWord Text.isAsciiBlank

/-- How far a branch is ahead is decided within a text that is shut. -/
theorem branchAhead?_append (shut : Shut rest) :
    branchAhead? (rest ++ behind) = branchAhead? rest := by
  have first := shut.afterLineBlanks
  have word := first.isPrefixOf_append Closes.not_mem_elseWord behind
  rw [branchAhead?, branchAhead?, shut.afterLineBlanks_append]
  dsimp only
  rw [word]
  split
  · rename_i ahead
    obtain ⟨more, whole⟩ := List.isPrefixOf_iff_prefix.mp ahead
    rw [← whole] at first
    have inner := first.behind_word Closes.not_mem_elseWord
    rw [← whole, List.append_assoc, List.drop_left, List.drop_left, inner.afterLineBlanks_append,
      inner.afterLineBlanks.branchOpens_append, List.length_append, List.length_append,
      Nat.add_sub_add_right]
  · rfl

/-! ## Operators and numbers -/

theorem operatorAhead?_append (shut : Shut rest) (level : Level) :
    operatorAhead? level (rest ++ behind) = operatorAhead? level rest := by
  have same : (fun op : InfixOp => op.token.isPrefixOf (rest ++ behind)) =
      fun op => op.token.isPrefixOf rest :=
    funext fun op => shut.isPrefixOf_append (Closes.not_mem_token op) behind
  rw [operatorAhead?, operatorAhead?, same]

theorem negationAhead_append (shut : Shut rest) :
    negationAhead (rest ++ behind) = negationAhead rest := by
  rcases shut with closes | ⟨b, shut⟩
  · rcases closes with rfl | rfl <;> rfl
  · obtain ⟨b', more, rfl⟩ := List.exists_cons_of_ne_nil shut.ne_nil
    rfl

theorem numberAhead_append (shut : Shut rest) :
    numberAhead (rest ++ behind) = numberAhead rest := by
  rcases shut with closes | ⟨b, shut⟩
  · rcases closes with rfl | rfl <;> rfl
  · rw [List.cons_append, numberAhead, numberAhead, shut.head?_append]

/-- A number ends within a text that is shut. -/
theorem numberLength_append (shut : Shut rest) :
    numberLength (rest ++ behind) = numberLength rest := by
  have minus : ∃ sign, (if rest.head? == some (byte '-') then 1 else 0) = sign ∧
      (rest ++ behind).drop sign = rest.drop sign ++ behind ∧ Shut (rest.drop sign) := by
    split
    · rename_i there
      obtain ⟨more, rfl⟩ := List.head?_eq_some_iff.mp (beq_iff_eq.mp there)
      have apart : ∀ b ∈ [byte '-'], ¬ Closes b := by decide
      exact ⟨1, rfl, rfl, shut.behind_word apart⟩
    · exact ⟨0, rfl, rfl, shut⟩
  obtain ⟨sign, signed, first, digits⟩ := minus
  rw [numberLength, numberLength, shut.head?_append]
  simp only [signed]
  rw [← List.drop_drop, ← List.drop_drop, first, drop_takeWhile, drop_takeWhile,
    digits.dropWhile_append Closes.not_isDigit, digits.takeWhile_append Closes.not_isDigit]
  have ended := digits.dropWhile Closes.not_isDigit
  generalize (rest.drop sign).dropWhile isDigit = after at ended ⊢
  -- a fraction is a point and a digit, and neither is the last byte
  rcases ended with closes | ⟨point, ended⟩
  · rcases closes with rfl | rfl <;> cases behind <;> rfl
  rcases ended with closes | ⟨digit, ended⟩
  · rename_i digit
    have other : isDigit digit = false := Closes.not_isDigit digit closes
    simp [other]
  · rw [List.cons_append, List.cons_append]
    dsimp only
    rw [ended.takeWhile_append Closes.not_isDigit]

end Shut

/-- Raw text that ends in front of given bytes does so whatever they are. -/
theorem rawLength_of_append {inBody : Bool} {rest : List UInt8} (behind : List UInt8)
    (shut : rest ≠ [] → Shut rest) (within : rawLength inBody (rest ++ behind) ≤ rest.length) :
    rawLength inBody (rest ++ behind) = rawLength inBody rest := by
  induction rest with
  | nil => exact Nat.le_zero.mp within
  | cons b rest ih =>
    have whole := shut (List.cons_ne_nil b rest)
    have ends := whole.rawEnds_append behind inBody
    rw [List.cons_append] at ends within ⊢
    rw [rawLength, ends] at within ⊢
    rw [rawLength]
    split
    · rfl
    · rename_i goesOn
      rw [if_neg goesOn] at within
      exact congrArg (· + 1) (ih (@Shut.of_append _ [b] whole) (Nat.le_of_succ_le_succ within))

/-! ## String literals -/

/-- An escape takes two bytes. -/
theorem two_le_length {rest : List UInt8} {q : Quoted}
    (read : readQuoted (byte '\\' :: rest) = .ok q) : 2 ≤ q.length := by
  cases rest with
  | nil => cases read
  | cons e more =>
    rw [readQuoted, if_neg (by decide), if_pos rfl] at read
    split at read
    · obtain ⟨q', -, rfl⟩ := prepend_eq_ok.mp read
      exact Nat.le_add_right 2 _
    split at read
    · obtain ⟨q', -, rfl⟩ := prepend_eq_ok.mp read
      exact Nat.le_add_right 2 _
    · cases read

theorem prepend_of_following {count left : Nat} {add : Quoted → Quoted} {q : Quoted}
    {following following' : Except (ParseFault × Nat) Quoted}
    (longer : ∀ q', (add q').length = count + q'.length)
    (same : ∀ {q'}, following' = .ok q' → q'.length ≤ left → following = .ok q')
    (read : prepend count add following' = .ok q) (within : q.length ≤ left + count) :
    prepend count add following = .ok q := by
  obtain ⟨q', ok, rfl⟩ := prepend_eq_ok.mp read
  rw [longer, Nat.add_comm] at within
  exact prepend_eq_ok.mpr ⟨q', same ok (Nat.le_of_add_le_add_right within), rfl⟩

/-- What is read of a string literal is told by the bytes that are read. -/
theorem readQuoted_of_append {rest behind : List UInt8} {q : Quoted}
    (read : readQuoted (rest ++ behind) = .ok q) (within : q.length ≤ rest.length) :
    readQuoted rest = .ok q := by
  fun_induction readQuoted rest generalizing q with
  | case1 => exact absurd within (Nat.not_le_of_lt (Nat.zero_lt_of_lt (template_length_lt read).1))
  | case2 =>
    rw [List.cons_append, readQuoted.eq_def] at read
    exact read
  | case3 => exact absurd (two_le_length read) (Nat.not_le_of_lt (Nat.lt_succ_of_le within))
  | case4 _ more ih =>
    rw [List.cons_append, List.cons_append, readQuoted, if_neg (by decide), if_pos rfl] at read
    exact prepend_of_following (fun _ => rfl) ih read within
  | case5 e more hash meant escape _ ih =>
    rw [List.cons_append, List.cons_append, readQuoted, if_neg (by decide), if_pos rfl] at read
    simp only [if_neg hash, escape] at read
    exact prepend_of_following (fun _ => rfl) ih read within
  | case6 e more hash escape =>
    rw [List.cons_append, List.cons_append, readQuoted, if_neg (by decide), if_pos rfl] at read
    simp only [if_neg hash, escape] at read
    cases read
  | case7 b more quote slash ih =>
    rw [List.cons_append, readQuoted.eq_def] at read
    simp only [if_neg quote, if_neg slash] at read
    exact prepend_of_following (fun _ => rfl) ih read within

end Stencil.Grammar.Kit
