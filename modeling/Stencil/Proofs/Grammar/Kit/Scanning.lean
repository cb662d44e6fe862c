import Stencil.Grammar.Kit
import Stencil.Proofs.Places

/-! # The loops over the bytes of a token

Raw text, words, numbers, blanks and string literals are read byte by byte. Each iteration reads at
least one byte, so it never takes more of them than bytes remain, and what is cut out of the text
lies between two cursors of it.
-/

namespace Stencil

namespace Cursor

variable {buffer : Buffer} {c next last : Cursor buffer} {n : Nat}

/-- The bytes are those of the text from one cursor to the other. -/
structure Cuts (c next : Cursor buffer) (bytes : List UInt8) : Prop where
  ordered : c.position.offset ≤ next.position.offset
  inside : next.position.offset ≤ buffer.text.length
  cut : bytes = c.slice c.position.offset next.position.offset

theorem cuts_advance (c : Cursor buffer) (n : Nat) : Cuts c (c.advance n) (c.rest.take n) where
  ordered := offset_le (c.remaining_advance_le n)
  inside := by
    rw [← (c.advance n).offset_add_remaining]
    exact Nat.le_add_right _ _
  cut := (c.bytes_source n).symm

@[simp] theorem advance_zero (c : Cursor buffer) : c.advance 0 = c :=
  eq_of_remaining (c.remaining_advance 0)

@[simp] theorem advance_advance (c : Cursor buffer) (n m : Nat) :
    (c.advance n).advance m = c.advance (n + m) :=
  eq_of_remaining (by rw [remaining_advance, remaining_advance, remaining_advance, Nat.sub_add_eq])

/-- A loop leads from one cursor to the other, where it stops. How many bytes an iteration reads is
decided by those that remain, and it is one at least. -/
inductive Loops (iteration : List UInt8 → Option Nat) : Cursor buffer → Cursor buffer → Prop
  | done {c : Cursor buffer} (stops : iteration c.rest = none) : Loops iteration c c
  | again {c last : Cursor buffer} {n : Nat} (goesOn : iteration c.rest = some n)
      (fewer : (c.advance n).remaining < c.remaining)
      (others : Loops iteration (c.advance n) last) : Loops iteration c last

namespace Loops

variable {iteration : List UInt8 → Option Nat}

/-- A loop whose iterations read something stops somewhere. -/
theorem exists_last (reads : ∀ bytes n, iteration bytes = some n → 0 < n ∧ bytes ≠ [])
    (c : Cursor buffer) : ∃ last, Loops iteration c last := by
  induction left : c.remaining using Nat.strongRecOn generalizing c with
  | ind count ih =>
    cases goesOn : iteration c.rest with
    | none => exact ⟨c, .done goesOn⟩
    | some n =>
      obtain ⟨some, there⟩ := reads c.rest n goesOn
      have fewer := remaining_advance_lt some there
      obtain ⟨last, others⟩ := ih _ (left ▸ fewer) (c.advance n) rfl
      exact ⟨last, .again goesOn fewer others⟩

/-- The length counts the bytes that a loop reads. -/
structure Counted (iteration : List UInt8 → Option Nat) (length : List UInt8 → Nat) : Prop where
  stops : ∀ bytes, iteration bytes = none → length bytes = 0
  goesOn : ∀ bytes n, iteration bytes = some n →
    0 < n ∧ bytes ≠ [] ∧ length bytes = n + length (bytes.drop n)

theorem of_counted {length : List UInt8 → Nat} (counted : Counted iteration length)
    (c : Cursor buffer) : Loops iteration c (c.advance (length c.rest)) := by
  obtain ⟨last, loops⟩ :=
    exists_last (fun bytes n goesOn => (counted.goesOn bytes n goesOn).imp_right And.left) c
  suffices c.advance (length c.rest) = last by rwa [this]
  induction loops with
  | done stops => rw [counted.stops _ stops, advance_zero]
  | again goesOn fewer others ih =>
    rw [rest_advance, advance_advance] at ih
    rw [(counted.goesOn _ _ goesOn).2.2, ih]

end Loops

end Cursor

namespace Grammar.Kit

open Cursor (Loops Cuts)

variable {buffer : Buffer} {c : Cursor buffer}

/-! ## Iterations -/

def oneWhile (p : UInt8 → Bool) : List UInt8 → Option Nat
  | [] => none
  | b :: _ => if p b then some 1 else none

/-- Reading a run of bytes is a loop over single ones. -/
theorem counted_takeWhile (p : UInt8 → Bool) :
    Loops.Counted (oneWhile p) fun bytes => (bytes.takeWhile p).length where
  stops bytes stops := by
    cases bytes with
    | nil => rfl
    | cons b rest => simpa [oneWhile, List.takeWhile_cons] using stops
  goesOn bytes n goesOn := by
    cases bytes with
    | nil => cases goesOn
    | cons b rest =>
      obtain ⟨holds, rfl⟩ : p b = true ∧ 1 = n := by simpa [oneWhile] using goesOn
      refine ⟨Nat.one_pos, List.cons_ne_nil _ _, ?_⟩
      rw [List.takeWhile_cons_of_pos holds, List.length_cons, Nat.add_comm]
      rfl

def rawIteration (inBody : Bool) : List UInt8 → Option Nat
  | [] => none
  | b :: rest => if rawEnds inBody (b :: rest) then none else some 1

/-- Reading raw text is a loop over its bytes. -/
theorem counted_rawLength (inBody : Bool) :
    Loops.Counted (rawIteration inBody) (rawLength inBody) where
  stops bytes stops := by
    cases bytes with
    | nil => rfl
    | cons b rest => simpa [rawIteration, rawLength] using stops
  goesOn bytes n goesOn := by
    cases bytes with
    | nil => cases goesOn
    | cons b rest =>
      obtain ⟨inside, rfl⟩ : rawEnds inBody (b :: rest) = false ∧ 1 = n := by
        simpa [rawIteration] using goesOn
      refine ⟨Nat.one_pos, List.cons_ne_nil _ _, ?_⟩
      rw [rawLength, inside, if_neg Bool.false_ne_true, Nat.add_comm]
      rfl

/-- Reads a byte of a string literal, or an escape with the byte it is for. -/
def quotedIteration : List UInt8 → Option Nat
  | [] => none
  | b :: rest =>
    if b = byte '"' then none
    else if b = byte '\\' then
      match rest with
      | [] => none
      | e :: _ => if e = byte '#' ∨ (unescaped? e).isSome then some 2 else none
    else some 1

theorem quotedIteration_reads (bytes : List UInt8) (n : Nat)
    (goesOn : quotedIteration bytes = some n) : 0 < n ∧ bytes ≠ [] := by
  unfold quotedIteration at goesOn
  split at goesOn
  · cases goesOn
  refine ⟨?_, List.cons_ne_nil _ _⟩
  split at goesOn
  · cases goesOn
  split at goesOn
  · split at goesOn
    · cases goesOn
    split at goesOn
    · cases goesOn
      exact Nat.two_pos
    · cases goesOn
  · cases goesOn
    exact Nat.one_pos

/-- The loop over a string literal stops at a quote, which some bytes lead behind. -/
def StopsAtQuote (c : Cursor buffer) (length : Nat) : Prop :=
  ∃ close, Loops quotedIteration c close ∧ close.rest.head? = some (byte '"') ∧
    c.advance length = close.advance 1

theorem StopsAtQuote.again {n length : Nat} (goesOn : quotedIteration c.rest = some n)
    (others : StopsAtQuote (c.advance n) length) : StopsAtQuote c (n + length) := by
  obtain ⟨close, loops, quote, place⟩ := others
  obtain ⟨some, there⟩ := quotedIteration_reads _ _ goesOn
  rw [Cursor.advance_advance] at place
  exact ⟨close, .again goesOn (Cursor.remaining_advance_lt some there) loops, quote, place⟩

/-- A string literal is scanned up to its quote. -/
theorem stopsAtQuote_of_readQuoted {q : Quoted} (read : readQuoted c.rest = .ok q) :
    StopsAtQuote c q.length := by
  generalize there : c.rest = bytes at read
  fun_induction readQuoted bytes generalizing c q with
  | case1 | case3 | case6 => simp at read
  | case2 rest =>
    cases read
    exact ⟨c, .done (by rw [there]; rfl), by rw [there]; rfl, rfl⟩
  | case4 more _ ih =>
    obtain ⟨q', following, rfl⟩ := prepend_eq_ok.mp read
    have goesOn : quotedIteration c.rest = some 2 := by rw [there]; rfl
    exact .again goesOn (ih (by rw [Cursor.rest_advance, there]; rfl) following)
  | case5 e more hash meant escape quote ih =>
    obtain ⟨q', following, rfl⟩ := prepend_eq_ok.mp read
    have goesOn : quotedIteration c.rest = some 2 := by
      rw [there, quotedIteration, if_neg quote, if_pos rfl]
      exact if_pos (.inr (by rw [escape]; rfl))
    exact .again goesOn (ih (by rw [Cursor.rest_advance, there]; rfl) following)
  | case7 b rest quote slash ih =>
    obtain ⟨q', following, rfl⟩ := prepend_eq_ok.mp read
    have goesOn : quotedIteration c.rest = some 1 := by
      rw [there, quotedIteration.eq_def]
      simp only [if_neg quote, if_neg slash]
    exact .again goesOn (ih (by rw [Cursor.rest_advance, there]; rfl) following)

/-- The bytes begin with a point and a digit. -/
def fractionAhead : List UInt8 → Bool
  | point :: digit :: _ => point == byte '.' && isDigit digit
  | _ => false

/-- A number is read from one cursor to another: a sign, digits, and perhaps a point and digits. -/
inductive Numeral (c : Cursor buffer) : Bool → Cursor buffer → Prop
  | int {last : Cursor buffer} {sign : Nat}
      (signed : sign = if c.rest.head? == some (byte '-') then 1 else 0)
      (whole : Loops (oneWhile isDigit) (c.advance sign) last)
      (pointless : fractionAhead last.rest = false) : Numeral c false last
  | float {middle last : Cursor buffer} {sign : Nat}
      (signed : sign = if c.rest.head? == some (byte '-') then 1 else 0)
      (whole : Loops (oneWhile isDigit) (c.advance sign) middle)
      (point : fractionAhead middle.rest = true)
      (fraction : Loops (oneWhile isDigit) (middle.advance 1) last) : Numeral c true last

theorem numeral_numberLength (c : Cursor buffer) :
    Numeral c (numberLength c.rest).2 (c.advance (numberLength c.rest).1) := by
  generalize signed : (if c.rest.head? == some (byte '-') then 1 else 0) = sign
  have whole := Loops.of_counted (counted_takeWhile isDigit) (c.advance sign)
  rw [Cursor.rest_advance, Cursor.advance_advance] at whole
  unfold numberLength
  simp only [signed]
  generalize sign + ((c.rest.drop sign).takeWhile isDigit).length = count at whole ⊢
  have behind : (c.advance count).rest = c.rest.drop count := c.rest_advance count
  split
  · rename_i point digit more parts
    rw [parts] at behind
    split
    · rename_i ahead
      have digits : isDigit digit = true := (Bool.and_eq_true_iff.mp ahead).2
      have fraction := Loops.of_counted (counted_takeWhile isDigit) ((c.advance count).advance 1)
      rw [Cursor.rest_advance, behind, List.drop_one, List.tail_cons,
        List.takeWhile_cons_of_pos digits, List.length_cons, Cursor.advance_advance,
        Cursor.advance_advance] at fraction
      rw [show count + 2 + (more.takeWhile isDigit).length =
        count + 1 + ((more.takeWhile isDigit).length + 1) by omega]
      exact .float signed.symm whole (by rw [behind]; exact ahead)
        (by rwa [Cursor.advance_advance])
    · rename_i pointless
      exact .int signed.symm whole (by rw [behind]; exact Bool.eq_false_iff.mpr pointless)
  · rename_i short
    refine .int signed.symm whole ?_
    rw [behind]
    unfold fractionAhead
    split
    · rename_i point digit more parts
      exact absurd parts (short point digit more)
    · rfl

/-- A number takes at least one byte. -/
theorem numberLength_pos {rest : List UInt8} (ahead : numberAhead rest = true) :
    0 < (numberLength rest).1 := by
  have whole : 0 < (if rest.head? == some (byte '-') then 1 else 0) +
      ((rest.drop (if rest.head? == some (byte '-') then 1 else 0)).takeWhile isDigit).length := by
    cases rest with
    | nil => cases ahead
    | cons b more =>
      split
      · exact Nat.lt_of_lt_of_le Nat.one_pos (Nat.le_add_right _ _)
      · rename_i unsigned
        have digit : isDigit b = true := by
          simpa [numberAhead, show b ≠ byte '-' by simpa using unsigned] using ahead
        rw [List.drop_zero, List.takeWhile_cons_of_pos digit]
        simp
  unfold numberLength
  dsimp only
  split
  · split
    · dsimp only
      omega
    · exact whole
  · exact whole

/-! ## Tokens -/

/-- What is read byte by byte at a cursor. Whatever a rule looks at are the bytes of the text from
the cursor on. -/
structure Scans (c : Cursor buffer) : Prop where
  rest : c.rest = buffer.text.drop c.position.offset
  blanks : Loops (oneWhile Text.isAsciiBlank) c (blanks c).next
  run : ∀ p, Loops (oneWhile p) c (run p c).next ∧ Cuts c (run p c).next (run p c).value
  raw : ∀ inBody left, ∃ source bytes, (rawText inBody c left).value = .raw source bytes ∧
    Loops (rawIteration inBody) (c.advance 1) (rawText inBody c left).next ∧
      Cuts c (rawText inBody c left).next bytes
  escaped : ∀ left, escapeAhead c.rest = true →
    ∃ source, (escaped c left).value = .raw source [byte '#'] ∧
      Cuts (c.advance 1) (escaped c left).next [byte '#']
  word : ∀ left, c.rest.head?.any isWordByte = true →
    Loops (oneWhile isWordByte) c (wordBytes c left).next ∧
      Cuts c (wordBytes c left).next (wordBytes c left).value
  number : ∀ left, numberAhead c.rest = true → ∃ isFloat last bytes,
    Numeral c isFloat last ∧ Cuts c last bytes ∧
      Meets (fun why => why = .parse (.number (asciiText bytes)) (last.source c.position))
        (fun value next => next = last ∧ ∃ constant,
          numberLiteral? (bytes.map fun b => Char.ofNat b.toNat) isFloat = some constant ∧
            value = .literal (last.source c.position) constant)
        (number c left)
  string : ∀ left, (∃ last, Loops quotedIteration (c.advance 1) last) ∧
    ∀ literal, stringLiteral c left = .ok literal →
      (∃ close, Loops quotedIteration (c.advance 1) close ∧
        close.rest.head? = some (byte '"') ∧ literal.next = close.advance 1) ∧
      literal.template.length < c.remaining - literal.next.remaining

/-- Every scan of the grammar is a loop, each turn of which reads at least one byte. -/
theorem scans (c : Cursor buffer) : Scans c where
  rest := c.split_offset.2
  blanks := Loops.of_counted (counted_takeWhile _) c
  run p := by
    refine ⟨Loops.of_counted (counted_takeWhile p) c, ?_⟩
    have cuts := c.cuts_advance (c.run p).length
    rwa [show c.rest.take (c.run p).length = c.run p from
      List.prefix_iff_eq_take.mp (List.takeWhile_prefix p) |>.symm] at cuts
  raw inBody left := by
    have loops := Loops.of_counted (counted_rawLength inBody) (c.advance 1)
    rw [Cursor.rest_advance, List.drop_one, Cursor.advance_advance, Nat.add_comm] at loops
    exact ⟨_, _, rfl, loops, c.cuts_advance _⟩
  escaped left ahead := by
    have cuts := (c.advance 1).cuts_advance 1
    have hash : (c.advance 1).rest.take 1 = [byte '#'] := by
      rw [Cursor.rest_advance]
      match c.rest, ahead with
      | b :: b' :: more, ahead =>
        simp only [escapeAhead, Bool.and_eq_true, beq_iff_eq] at ahead
        rw [ahead.2]
        rfl
    rw [hash, Cursor.advance_advance] at cuts
    exact ⟨_, rfl, cuts⟩
  word left opens := by
    have loops := Loops.of_counted (counted_takeWhile isWordByte) c
    have length : (c.rest.takeWhile isWordByte).length =
        (c.rest.tail.takeWhile isWordByte).length + 1 := by
      obtain ⟨b, more, there⟩ := List.exists_cons_of_ne_nil left
      have first : isWordByte b = true := by simpa [there] using opens
      rw [there, List.takeWhile_cons_of_pos first]
      rfl
    rw [length] at loops
    exact ⟨loops, c.cuts_advance _⟩
  number left ahead := by
    have place : c.advance (max 1 (numberLength c.rest).1) = c.advance (numberLength c.rest).1 :=
      congrArg c.advance (Nat.max_eq_right (numberLength_pos ahead))
    refine ⟨_, _, _, numeral_numberLength c, c.cuts_advance _, ?_⟩
    unfold number
    dsimp only
    split
    · rename_i constant read
      exact .of_ok ⟨place, constant, read, congrArg (fun next : Cursor buffer =>
        Node.literal (next.source c.position) constant) place⟩
    · refine .of_error ?_
      rw [place]
      rfl
  string left := by
    refine ⟨Loops.exists_last quotedIteration_reads _, fun literal read => ?_⟩
    have some : 1 ≤ c.remaining := List.length_pos_iff.mpr left
    unfold stringLiteral at read
    dsimp only at read
    split at read
    · cases read
    · rename_i quoted contents
      obtain ⟨close, loops, quote, place⟩ := stopsAtQuote_of_readQuoted contents
      obtain ⟨shorter, within⟩ := template_length_lt contents
      split at read
      · cases read
      · cases read
        refine ⟨⟨close, loops, quote, place⟩, ?_⟩
        change quoted.template.length <
          c.remaining - ((c.advance 1).advance quoted.length).remaining
        have inside : quoted.length ≤ (c.advance 1).remaining := within
        simp only [Cursor.remaining_advance] at inside ⊢
        omega

end Grammar.Kit

end Stencil
