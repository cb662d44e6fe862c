import Stencil.Decimal.Reading

/-! # Reading back a written integer

An integer is written as its digits, behind a minus when it is negative. Reading them gives the
integer back, and every 64-bit integer fits.
-/

namespace Stencil.Decimal

def digits (n : Nat) : List Char := Nat.toDigits 10 n

theorem digits_ne_nil (n : Nat) : digits n ≠ [] := Nat.toDigits_ne_nil

theorem isDigit_of_mem_digits {n : Nat} {c : Char} (member : c ∈ digits n) : c.isDigit = true :=
  Nat.isDigit_of_mem_toDigits (by decide) (by decide) member

/-- The digits of a number are read back as it. -/
theorem natural?_digits (n : Nat) : natural? (digits n) = some n := by
  have all : (digits n).all Char.isDigit = true :=
    List.all_eq_true.mpr fun _ member => isDigit_of_mem_digits member
  have some : (digits n).isEmpty = false := by simp [digits_ne_nil n]
  have value : (digits n).foldl (fun m c => 10 * m + (c.toNat - 48)) 0 = n :=
    Nat.ofDigitChars_eq_foldl.symm.trans Nat.ofDigitChars_ten_toDigits
  rw [natural?, some, all, value]
  rfl

/-! ## Zeros in front -/

/-- A number is read from digits alone, and at least one of them. -/
theorem natural?_eq_some {cs : List Char} {n : Nat} : natural? cs = some n ↔
    cs ≠ [] ∧ (∀ c ∈ cs, c.isDigit = true) ∧ Nat.ofDigitChars 10 cs 0 = n := by
  rw [natural?, Nat.ofDigitChars_eq_foldl]
  by_cases digits : cs.isEmpty = true ∨ ¬ cs.all Char.isDigit = true
  · rw [if_pos (by simpa using digits)]
    simp only [reduceCtorEq, false_iff]
    rintro ⟨some, all, -⟩
    exact digits.elim (fun none => some (List.isEmpty_iff.mp none))
      fun other => other (List.all_eq_true.mpr all)
  · rw [if_neg (by simpa using digits), Option.some_inj]
    obtain ⟨some, all⟩ := not_or.mp digits
    have digit := List.all_eq_true.mp (Classical.not_not.mp all)
    exact ⟨fun value => ⟨fun none => some (by rw [none]; rfl), digit, value⟩, fun read => read.2.2⟩

theorem toNat_of_isDigit {c : Char} (digit : c.isDigit = true) : 48 ≤ c.toNat ∧ c.toNat ≤ 57 := by
  simpa [Char.isDigit, UInt32.le_iff_toNat_le] using digit

theorem digits_digit {c : Char} (digit : c.isDigit = true) : digits (c.toNat - 48) = [c] := by
  have bounds := toNat_of_isDigit digit
  have small : c.toNat - 48 < 10 := by omega
  have same : Nat.digitChar (c.toNat - 48) = c := by
    apply Char.toNat_inj.mp
    rw [Nat.toNat_digitChar_of_lt_ten small]
    omega
  rw [digits, Nat.toDigits_of_lt_base small, same]

/-- Digits behind a number that is not zero are the last digits of what they are read as. -/
theorem digits_ofDigitChars {n : Nat} (positive : 0 < n) {cs : List Char}
    (all : ∀ c ∈ cs, c.isDigit = true) : digits (Nat.ofDigitChars 10 cs n) = digits n ++ cs := by
  induction cs generalizing n with
  | nil => rw [Nat.ofDigitChars_nil, List.append_nil]
  | cons c cs ih =>
    obtain ⟨first, others⟩ := List.forall_mem_cons.mp all
    have small : c.toNat - 48 < 10 := by
      have bounds := toNat_of_isDigit first
      omega
    have step : digits n ++ [c] = digits (10 * n + (c.toNat - 48)) := by
      rw [← digits_digit first]
      exact Nat.toDigits_append_toDigits (by decide) positive small
    have goesOn := ih (n := 10 * n + (c.toNat - 48)) (by omega) others
    rw [← step, List.append_assoc, List.singleton_append] at goesOn
    exact goesOn

/-- Zeros before the digits of a number do not change what they are read as. -/
theorem natural?_zeros (zeros n : Nat) :
    natural? (List.replicate zeros '0' ++ digits n) = some n := by
  refine natural?_eq_some.mpr ⟨?_, ?_, ?_⟩
  · exact List.append_ne_nil_of_right_ne_nil _ (digits_ne_nil n)
  · refine List.forall_mem_append.mpr ⟨fun c member => ?_, fun c => isDigit_of_mem_digits⟩
    rw [List.eq_of_mem_replicate member]
    rfl
  · induction zeros with
    | zero => exact Nat.ofDigitChars_ten_toDigits
    | succ zeros ih => exact ih

/-- What is read as a number is its digits, with any number of zeros before them. -/
theorem exists_zeros {cs : List Char} {n : Nat} (read : natural? cs = some n) :
    ∃ zeros, cs = List.replicate zeros '0' ++ digits n := by
  obtain ⟨some, all, value⟩ := natural?_eq_some.mp read
  subst value
  induction cs with
  | nil => exact absurd rfl some
  | cons c cs ih =>
    obtain ⟨first, others⟩ := List.forall_mem_cons.mp all
    by_cases zero : c = '0'
    · subst zero
      by_cases last : cs = []
      · subst last
        exact ⟨0, rfl⟩
      · obtain ⟨zeros, same⟩ := ih last others (natural?_eq_some.mpr ⟨last, others, rfl⟩)
        refine ⟨zeros + 1, ?_⟩
        rw [List.replicate_succ, List.cons_append]
        exact congrArg ('0' :: ·) same
    · have positive : 0 < c.toNat - 48 := by
        have digit := digits_digit first
        rcases Nat.eq_zero_or_pos (c.toNat - 48) with none | some
        · rw [none] at digit
          exact absurd (List.singleton_inj.mp digit).symm zero
        · exact some
      refine ⟨0, ?_⟩
      have same := digits_ofDigitChars positive others
      rw [digits_digit first, List.singleton_append] at same
      rw [Nat.ofDigitChars_cons, Nat.mul_zero, Nat.zero_add]
      exact same.symm

/-! ## Signs -/

/-- The characters of an integer: its digits, behind a minus when it is negative. -/
def signed : Int → List Char
  | .ofNat n => digits n
  | .negSucc n => '-' :: digits (n + 1)

/-- Integers are written with a sign and digits. -/
theorem toList_toString (i : Int) : (toString i).toList = signed i := by
  cases i with
  | ofNat n => exact Nat.toList_repr
  | negSucc n =>
    change ("-" ++ (n + 1).repr).toList = '-' :: digits (n + 1)
    rw [String.toList_append, Nat.toList_repr]
    rfl

/-- Without a sign an integer is read as a number. -/
theorem integer?_of_digits {cs : List Char} (all : ∀ c ∈ cs, c.isDigit = true) :
    integer? cs = (natural? cs).map Int.ofNat := by
  unfold integer?
  split
  · exact absurd (all '-' List.mem_cons_self) (by decide)
  · exact absurd (all '+' List.mem_cons_self) (by decide)
  · rfl

/-- A written integer is read back. -/
theorem integer?_signed (i : Int) : integer? (signed i) = some i := by
  cases i with
  | ofNat n =>
    rw [signed, integer?_of_digits fun _ member => isDigit_of_mem_digits member, natural?_digits]
    rfl
  | negSucc n =>
    rw [signed, integer?, natural?_digits]
    rfl

theorem fit?_toInt (i : Int64) : fit? i.toInt = some i := by
  have low := i.le_toInt
  have high := i.toInt_lt
  rw [fit?, if_pos (by omega), Int64.ofInt_toInt]

/-- Every 64-bit integer is read back from its text. -/
theorem int64?_signed (i : Int64) : int64? (signed i.toInt) = some i := by
  rw [int64?, integer?_signed, Option.bind_some, fit?_toInt]

end Stencil.Decimal
