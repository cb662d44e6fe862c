import Stencil.Grammar.Kit
import Stencil.Proofs.Decimal.Integer
import Stencil.Proofs.Grammar.Kit.Expressions
import Stencil.Proofs.Grammar.Reads
import Stencil.Proofs.Text.Utf8

/-! # Reading the tokens of kit expressions

A token is read to its end and no further when nothing stands behind it that could belong to it.
-/

namespace Stencil.Grammar.Kit

variable {buffer : Buffer}

/-- What holds of the bytes of a list is decided byte by byte of the list. -/
instance decidableBytes (bytes : List UInt8) (P : UInt8 → Prop) [DecidablePred P] :
    Decidable (∀ b ∈ bytes, P b) := List.decidableBAll P bytes

theorem afterBlanks_append {gap : List UInt8} (blank : Blank gap) (rest : List UInt8) :
    afterBlanks (gap ++ rest) = afterBlanks rest := List.dropWhile_append_of_pos blank

theorem afterBlanks_cons {b : UInt8} (rest : List UInt8) (dark : Text.isAsciiBlank b = false) :
    afterBlanks (b :: rest) = b :: rest := List.dropWhile_cons_of_neg (by simp [dark])

@[simp] theorem afterBlanks_idem (rest : List UInt8) :
    afterBlanks (afterBlanks rest) = afterBlanks rest := by
  induction rest with
  | nil => rfl
  | cons b rest ih =>
    cases blank : Text.isAsciiBlank b with
    | true => simpa [afterBlanks, blank] using ih
    | false => rw [afterBlanks_cons _ blank, afterBlanks_cons _ blank]

theorem reads_expect {c : Cursor buffer} {b : UInt8} {why : ParseFault} {rest : List UInt8}
    (there : c.rest = b :: rest) : Reads (expect b why c) fun _ next => next.rest = rest := by
  have head : c.rest.head? = some b := by rw [there]; rfl
  rw [expect, dif_pos head]
  exact .of_ok (by rw [Cursor.rest_advance, there]; rfl)

/-! ## Words -/

/-- Nothing stands here that a word or number in front of it would take in. -/
def Ends (rest : List UInt8) : Prop := ∀ b ∈ rest.head?, isWordByte b = false ∧ b ≠ byte '('

theorem toNat_of_isWordByte {b : UInt8} (inside : isWordByte b = true) : b.toNat < 128 := by
  simp only [isWordByte, isNameByte, isLetter, isDigit, Bool.or_eq_true, Bool.and_eq_true,
    decide_eq_true_eq, beq_iff_eq, UInt8.le_iff_toNat_le] at inside
  rcases inside with (((⟨-, bound⟩ | ⟨-, bound⟩) | ⟨-, bound⟩) | rfl) | rfl
  · change b.toNat ≤ 122 at bound; omega
  · change b.toNat ≤ 90 at bound; omega
  · change b.toNat ≤ 57 at bound; omega
  · decide
  · decide

theorem toNat_ofNat {b : UInt8} (ascii : b.toNat < 128) : (Char.ofNat b.toNat).toNat = b.toNat := by
  have valid : b.toNat.isValidChar := .inl (by omega)
  rw [Char.ofNat, dif_pos valid]
  rfl

theorem toUInt8_ofNat {b : UInt8} (ascii : b.toNat < 128) : (Char.ofNat b.toNat).toUInt8 = b := by
  have same := toNat_ofNat ascii
  rw [← UInt8.toNat_inj, Utf8.toNat_toUInt8 (by omega), same]

theorem takeWhile_append {p : UInt8 → Bool} {bytes rest : List UInt8}
    (inside : ∀ b ∈ bytes, p b = true) (stops : ∀ b ∈ rest.head?, p b = false) :
    (bytes ++ rest).takeWhile p = bytes := by
  rw [List.takeWhile_append_of_pos inside]
  cases rest with
  | nil => simp
  | cons b rest => simp [stops b rfl]

/-- The bytes of a word are read up to the first that is none. -/
theorem wordBytes_eq {c : Cursor buffer} (left : c.rest ≠ []) {word : Word} {rest : List UInt8}
    (there : c.rest = word.bytes ++ rest) (stops : ∀ b ∈ rest.head?, isWordByte b = false) :
    (wordBytes c left).value = word.bytes ∧ (wordBytes c left).next.rest = rest := by
  obtain ⟨bytes, opens, inside⟩ := word
  cases bytes with
  | nil => simp at opens
  | cons b bytes =>
    have tail : c.rest.tail.takeWhile isWordByte = bytes := by
      rw [there]
      exact takeWhile_append (fun x member => inside x (List.mem_cons_of_mem _ member)) stops
    simp only [wordBytes, Cursor.rest_advance]
    rw [tail, there]
    exact ⟨@List.take_left _ (b :: bytes) rest, @List.drop_left _ (b :: bytes) rest⟩

/-! ## Numbers -/

theorem isDigit_byte {c : Char} (digit : c.isDigit = true) : isDigit (byte c) = true := by
  have bounds := Decimal.toNat_of_isDigit digit
  have same : (byte c).toNat = c.toNat := Utf8.toNat_toUInt8 (by omega)
  simp only [isDigit, UInt8.le_iff_toNat_le, same, Bool.and_eq_true, decide_eq_true_eq]
  exact bounds

def digitBytes (n : Nat) : List UInt8 := (Decimal.digits n).map byte

theorem isDigit_of_mem_digitBytes {n : Nat} : ∀ b ∈ digitBytes n, isDigit b = true := by
  intro b member
  obtain ⟨c, inside, rfl⟩ := List.mem_map.mp member
  exact isDigit_byte (Decimal.isDigit_of_mem_digits inside)

theorem isWordByte_of_isDigit {b : UInt8} (digit : isDigit b = true) : isWordByte b = true := by
  simp [isWordByte, isNameByte, digit]

theorem not_isDigit_of_ends {rest : List UInt8} (ends : Ends rest) :
    ∀ b ∈ rest.head?, isDigit b = false := by
  intro b first
  cases digit : isDigit b with
  | false => rfl
  | true => exact absurd (isWordByte_of_isDigit digit) (by simp [(ends b first).1])

/-- A number ends where its digits end, as no fraction follows them. -/
theorem numberLength_append {sign ds rest : List UInt8}
    (signed : sign = [byte '-'] ∨ sign = [] ∧ ∀ b ∈ ds.head?, b ≠ byte '-')
    (digits : ∀ b ∈ ds, isDigit b = true) (some : ds ≠ []) (ends : Ends rest) :
    numberLength (sign ++ ds ++ rest) = (sign.length + ds.length, false) := by
  have run : (ds ++ rest).takeWhile isDigit = ds :=
    takeWhile_append digits (not_isDigit_of_ends ends)
  have length : (if (sign ++ ds ++ rest).head? == Option.some (byte '-') then 1 else 0) =
      sign.length := by
    rcases signed with rfl | ⟨rfl, dark⟩
    · rfl
    · cases ds with
      | nil => exact absurd rfl some
      | cons b ds => simpa using dark b rfl
  have rests : (sign ++ ds ++ rest).drop (sign.length + ds.length) = rest := by
    rw [← List.length_append, List.drop_left]
  have pointless : ∀ point digit more, rest = point :: digit :: more →
      (point == byte '.' && isDigit digit) = false := by
    rintro point digit more rfl
    have word := (ends point rfl).1
    simp only [isWordByte, Bool.or_eq_false_iff] at word
    simp [word.2]
  rw [numberLength]
  simp only [length]
  rw [List.append_assoc, List.drop_left, run, ← List.append_assoc, rests]
  split
  · rename_i point digit more
    rw [if_neg (by simp [pointless point digit more rfl])]
  · rfl

theorem ascii_of_mem_signed {i : Int} {c : Char} (member : c ∈ Decimal.signed i) :
    c.toNat < 128 := by
  have digit : ∀ n, c ∈ Decimal.digits n → c.toNat < 128 := fun n inside => by
    have bounds := Decimal.toNat_of_isDigit (Decimal.isDigit_of_mem_digits inside)
    omega
  cases i with
  | ofNat n => exact digit n member
  | negSucc n =>
    rcases List.mem_cons.mp member with rfl | inside
    · decide
    · exact digit _ inside

/-- The bytes of an integer. -/
theorem encode_toString (i : Int) :
    Utf8.encode (toString i) = (Decimal.signed i).map byte := by
  rw [Utf8.encode, Decimal.toList_toString]
  exact Utf8.encodeChars_ascii fun _ member => ascii_of_mem_signed member

/-- An integer is a sign and digits. -/
theorem signed_parts (i : Int) : ∃ sign ds, (Decimal.signed i).map byte = sign ++ ds ∧
    (sign = [byte '-'] ∨ sign = [] ∧ ∀ b ∈ ds.head?, b ≠ byte '-') ∧
    (∀ b ∈ ds, isDigit b = true) ∧ ds ≠ [] := by
  have some (n : Nat) : digitBytes n ≠ [] := by simpa [digitBytes] using Decimal.digits_ne_nil n
  cases i with
  | ofNat n =>
    refine ⟨[], digitBytes n, rfl, .inr ⟨rfl, fun b first => ?_⟩, isDigit_of_mem_digitBytes, some n⟩
    rintro rfl
    exact absurd (isDigit_of_mem_digitBytes _ (List.mem_of_mem_head? first)) (by decide)
  | negSucc n =>
    exact ⟨[byte '-'], digitBytes (n + 1), rfl, .inl rfl, isDigit_of_mem_digitBytes, some _⟩

theorem numberAhead_signed (i : Int) (rest : List UInt8) :
    numberAhead ((Decimal.signed i).map byte ++ rest) = true := by
  obtain ⟨sign, ds, parts, signed, digits, some⟩ := signed_parts i
  rw [parts]
  obtain ⟨d, more, rfl⟩ := List.exists_cons_of_ne_nil some
  have digit := digits d List.mem_cons_self
  rcases signed with rfl | ⟨rfl, -⟩ <;> simp [numberAhead, digit]

/-- A written integer is read as it. -/
theorem reads_number {c : Cursor buffer} (left : c.rest ≠ []) {i : Int64} {rest : List UInt8}
    (there : c.rest = Utf8.encode (toString i.toInt) ++ rest) (ends : Ends rest) :
    Reads (number c left) fun value next =>
      value.bare = .literal nowhere (.int i) ∧ next.rest = rest := by
  rw [encode_toString] at there
  have length : numberLength c.rest = (((Decimal.signed i.toInt).map byte).length, false) := by
    obtain ⟨sign, ds, parts, signed, digits, some⟩ := signed_parts i.toInt
    rw [there, parts, numberLength_append signed digits some ends, List.length_append]
  have positive : 1 ≤ ((Decimal.signed i.toInt).map byte).length := by
    obtain ⟨sign, ds, parts, -, -, some⟩ := signed_parts i.toInt
    have := List.length_pos_iff.mpr some
    rw [parts, List.length_append]; omega
  have text : (c.rest.take ((Decimal.signed i.toInt).map byte).length).map
      (fun b => Char.ofNat b.toNat) = Decimal.signed i.toInt := by
    rw [there, List.take_left, List.map_map]
    exact (List.map_congr_left fun c member => Utf8.ofNat_toUInt8 (ascii_of_mem_signed member)).trans
      (List.map_id _)
  have constant : numberLiteral? (Decimal.signed i.toInt) false = some (.int i) := by
    simp [numberLiteral?, Decimal.int64?_signed]
  rw [number]
  simp only [length, text, constant]
  refine .of_ok ⟨rfl, ?_⟩
  rw [Cursor.rest_advance, Nat.max_eq_right positive, there, List.drop_left]

end Stencil.Grammar.Kit
