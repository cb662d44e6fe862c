import Mathlib.Algebra.Order.Group.Unbundled.Int
import Mathlib.Data.List.Basic
import Stencil.Operators
import Stencil.Proofs.Decimal.Integer

/-! # Arithmetic on integers

Operands that read as integers are computed with exactly. The result is the exact one where it fits
into 64 bits, and null otherwise; it never wraps around. Of the quotients by a divisor other than
zero only one does not fit, that of the least integer by minus one, and there is no remainder there
either. Otherwise quotient and remainder together give the dividend back, and doing so overflows
nowhere: the product is between zero and the dividend.
-/

namespace Stencil

namespace Decimal

def Fits (i : Int) : Prop := -2 ^ 63 ≤ i ∧ i < 2 ^ 63

variable {i : Int} {n : Int64}

theorem fits_toInt (n : Int64) : Fits n.toInt := ⟨n.le_toInt, n.toInt_lt⟩

theorem fit?_of_fits (fits : Fits i) : ∃ n : Int64, fit? i = some n ∧ n.toInt = i := by
  obtain ⟨low, high⟩ := fits
  exact ⟨.ofInt i, if_pos (by omega), Int64.toInt_ofInt_of_le low high⟩

theorem fit?_of_not_fits (beyond : ¬Fits i) : fit? i = none := by
  refine if_neg fun bounds => beyond ?_
  constructor <;> omega

theorem fit?_isNone : (fit? i).isNone = true ↔ ¬Fits i := by
  by_cases fits : Fits i
  · obtain ⟨n, found, -⟩ := fit?_of_fits fits
    simp [found, fits]
  · simp [fit?_of_not_fits fits, fits]

/-- The remainder is nearer to zero than the divisor. -/
theorem abs_tmod_lt {b : Int} (a : Int) (nonzero : b ≠ 0) : |a.tmod b| < |b| := by
  rw [Int.abs_eq_natAbs, Int.abs_eq_natAbs, Int.natAbs_tmod, Int.ofNat_lt]
  exact Nat.mod_lt _ (Int.natAbs_pos.mpr nonzero)

theorem tmod_eq_zero_or_sign (a b : Int) : a.tmod b = 0 ∨ (a.tmod b).sign = a.sign := by
  rw [Int.sign_tmod, ← Int.dvd_iff_tmod_eq_zero]
  by_cases whole : b ∣ a
  · exact .inl whole
  · exact .inr (if_neg whole)

/-- The quotient times the divisor is between zero and the dividend. -/
theorem tdiv_mul_between (a b : Int) :
    0 ≤ a.tdiv b * b ∧ a.tdiv b * b ≤ a ∨ a ≤ a.tdiv b * b ∧ a.tdiv b * b ≤ 0 := by
  have whole := Int.tdiv_mul_add_tmod a b
  have nearer : (a.tmod b).natAbs ≤ a.natAbs := Int.natAbs_tmod a b ▸ Nat.mod_le ..
  obtain positive | negative := Int.le_total 0 a
  · have := Int.tmod_nonneg b positive
    omega
  · have := Int.tmod_nonneg b (Int.neg_nonneg.mpr negative)
    rw [Int.neg_tmod] at this
    omega

/-- Every truncated quotient fits, but that of the least integer by minus one. -/
theorem fits_tdiv (a b : Int64) :
    Fits (a.toInt.tdiv b.toInt) ↔ ¬(a = Int64.minValue ∧ b = -1) := by
  obtain ⟨low, high⟩ := fits_toInt a
  obtain rfl | other := eq_or_ne b (-1)
  · have turned : a.toInt.tdiv (-1) = -a.toInt := by rw [Int.tdiv_neg, Int.tdiv_one]
    have least : a = Int64.minValue ↔ a.toInt = -2 ^ 63 := by
      rw [← Int64.toInt_inj, Int64.toInt_minValue]
    rw [and_iff_left rfl, least, show (-1 : Int64).toInt = -1 from rfl, turned, Fits]
    omega
  · refine iff_of_true ?_ fun least => other least.2
    have other : b.toInt ≠ -1 := fun eq => other (Int64.toInt_inj.mp eq)
    -- By one the quotient is the dividend, and by anything further off at most half of it.
    have size := Int.natAbs_tdiv a.toInt b.toInt
    obtain one | zero | further : b.toInt = 1 ∨ b.toInt = 0 ∨ 2 ≤ b.toInt.natAbs := by omega
    · rw [one, Int.tdiv_one]
      exact fits_toInt a
    · rw [zero, Int.tdiv_zero]
      constructor <;> decide
    · have half : a.toInt.natAbs.div b.toInt.natAbs ≤ a.toInt.natAbs / 2 :=
        Nat.div_le_div_left further Nat.two_pos
      constructor <;> omega

theorem fits_tmod (a : Int) {b : Int64} (nonzero : b.toInt ≠ 0) : Fits (a.tmod b.toInt) := by
  obtain ⟨low, high⟩ := fits_toInt b
  have nearer := abs_tmod_lt a nonzero
  rw [Int.abs_eq_natAbs, Int.abs_eq_natAbs] at nearer
  constructor <;> omega

theorem fits_tdiv_mul (a : Int64) (b : Int) : Fits (a.toInt.tdiv b * b) := by
  obtain ⟨low, high⟩ := fits_toInt a
  have between := tdiv_mul_between a.toInt b
  constructor <;> omega

end Decimal

namespace InfixOp

open Decimal

variable {op : InfixOp} {l r : Value} {a b : Int64} {result : Int}

/-- The operator has the exact result where it fits into 64 bits, and null otherwise. -/
def ExactOrNull (op : InfixOp) (l r : Value) (result : Int) : Prop :=
  (Fits result → ∃ c : Int64, c.toInt = result ∧ op.apply l r = .int c) ∧
    (¬Fits result → op.apply l r = .null)

theorem arithmetic_of_ints (left : l.asInt = some a) (right : r.asInt = some b) :
    op.arithmetic l r = ((op.onInts? a b).map .int).getD .null := by
  rw [arithmetic, left, right]

/-- A result that fits is the result. -/
theorem arithmetic_of_fits (left : l.asInt = some a) (right : r.asInt = some b)
    (quotient : op = modulo → Fits (a.toInt.tdiv b.toInt))
    (exact : op.exactResult? a.toInt b.toInt = some result) (fits : Fits result) :
    ∃ c : Int64, c.toInt = result ∧ op.arithmetic l r = .int c := by
  obtain ⟨c, found, same⟩ := fit?_of_fits fits
  refine ⟨c, same, ?_⟩
  rw [arithmetic_of_ints left right, onInts?, if_neg, exact, Option.bind_some, found]
  · rfl
  · exact fun division => fit?_isNone.mp division.2 (quotient division.1)

/-- A result that does not fit is null. -/
theorem arithmetic_of_not_fits (left : l.asInt = some a) (right : r.asInt = some b)
    (exact : op.exactResult? a.toInt b.toInt = some result) (beyond : ¬Fits result) :
    op.arithmetic l r = .null := by
  have none : op.onInts? a b = none := by
    rw [onInts?, exact, Option.bind_some, fit?_of_not_fits beyond, ite_self]
  rw [arithmetic_of_ints left right, none]
  rfl

/-- Sums, differences and products with what they are exactly. -/
def wholes (i j : Int) : List (InfixOp × Int) :=
  [(add, i + j), (subtract, i - j), (multiply, i * j)]

theorem exactOrNull_of_mem_wholes (left : l.asInt = some a) (right : r.asInt = some b)
    (member : (op, result) ∈ wholes a.toInt b.toInt) : ExactOrNull op l r result := by
  simp only [wholes, List.mem_cons, Prod.mk.injEq, List.not_mem_nil, or_false] at member
  obtain ⟨rfl, rfl⟩ | ⟨rfl, rfl⟩ | ⟨rfl, rfl⟩ := member <;>
    exact ⟨arithmetic_of_fits left right nofun rfl, arithmetic_of_not_fits left right rfl⟩

theorem ne_zero_of_apart (apart : ¬(b = 0 ∨ a = Int64.minValue ∧ b = -1)) : b.toInt ≠ 0 :=
  fun zero => apart (.inl (Int64.toInt_inj.mp zero))

theorem divide_of_apart (left : l.asInt = some a) (right : r.asInt = some b)
    (apart : ¬(b = 0 ∨ a = Int64.minValue ∧ b = -1)) :
    ∃ q : Int64, q.toInt = a.toInt.tdiv b.toInt ∧ divide.apply l r = .int q :=
  arithmetic_of_fits left right nofun (if_neg (ne_zero_of_apart apart))
    ((fits_tdiv a b).mpr fun least => apart (.inr least))

theorem modulo_of_apart (left : l.asInt = some a) (right : r.asInt = some b)
    (apart : ¬(b = 0 ∨ a = Int64.minValue ∧ b = -1)) :
    ∃ m : Int64, m.toInt = a.toInt.tmod b.toInt ∧ modulo.apply l r = .int m :=
  arithmetic_of_fits left right (fun _ => (fits_tdiv a b).mpr fun least => apart (.inr least))
    (if_neg (ne_zero_of_apart apart)) (fits_tmod a.toInt (ne_zero_of_apart apart))

theorem exactResult?_by_zero (member : op ∈ [divide, modulo]) (i : Int) :
    op.exactResult? i 0 = none := by
  obtain rfl | rfl := List.mem_pair.mp member <;> rfl

theorem onInts?_of_quotient_not_fits (member : op ∈ [divide, modulo])
    (beyond : ¬Fits (a.toInt.tdiv b.toInt)) : op.onInts? a b = none := by
  obtain rfl | rfl := List.mem_pair.mp member
  · rw [onInts?, if_neg nofun, exactResult?]
    split
    · rfl
    · exact fit?_of_not_fits beyond
  · exact if_pos ⟨rfl, fit?_isNone.mpr beyond⟩

/-- Neither by zero nor of the least integer by minus one is there a quotient or a remainder. -/
theorem division_null (left : l.asInt = some a) (right : r.asInt = some b)
    (improper : b = 0 ∨ a = Int64.minValue ∧ b = -1) (member : op ∈ [divide, modulo]) :
    op.apply l r = .null := by
  have none : op.onInts? a b = none := by
    obtain rfl | least := improper
    · rw [onInts?, Int64.toInt_zero, exactResult?_by_zero member, Option.bind_none, ite_self]
    · exact onInts?_of_quotient_not_fits member fun fits => (fits_tdiv a b).mp fits least
  have null : op.arithmetic l r = .null := by
    rw [arithmetic_of_ints left right, none]
    rfl
  obtain rfl | rfl := List.mem_pair.mp member <;> exact null

/-- Integer arithmetic is exact or null, whichever shapes the two integers come in. Sum, difference
and product are the exact ones where these fit into 64 bits, and null otherwise. Quotient and
remainder are null just when dividing by zero, or the least integer by minus one. Otherwise the
remainder is nearer to zero than the divisor, and zero or of the sign of the dividend; the quotient
times the divisor and the remainder added to it are the dividend, as integers and by the operators,
the product being exact too. -/
theorem integer_arithmetic (left : l.asInt = some a) (right : r.asInt = some b) :
    (∀ entry ∈ wholes a.toInt b.toInt, ExactOrNull entry.1 l r entry.2) ∧
      (∀ op ∈ [divide, modulo],
        op.apply l r = .null ↔ b = 0 ∨ a = Int64.minValue ∧ b = -1) ∧
      (¬(b = 0 ∨ a = Int64.minValue ∧ b = -1) → ∃ q m p : Int64,
        divide.apply l r = .int q ∧ modulo.apply l r = .int m ∧
          a.toInt = q.toInt * b.toInt + m.toInt ∧ |m.toInt| < |b.toInt| ∧
          (m.toInt = 0 ∨ m.toInt.sign = a.toInt.sign) ∧
          multiply.apply (.int q) r = .int p ∧ p.toInt = q.toInt * b.toInt ∧
          add.apply (.int p) (.int m) = .int a) := by
  refine ⟨fun entry member => exactOrNull_of_mem_wholes left right member, ?_, fun apart => ?_⟩
  · intro op member
    refine ⟨fun null => ?_, fun improper => division_null left right improper member⟩
    by_contra apart
    obtain ⟨q, -, quotient⟩ := divide_of_apart left right apart
    obtain ⟨m, -, remainder⟩ := modulo_of_apart left right apart
    obtain rfl | rfl := List.mem_pair.mp member
    · cases quotient.symm.trans null
    · cases remainder.symm.trans null
  · obtain ⟨q, quotient, divided⟩ := divide_of_apart left right apart
    obtain ⟨m, remainder, rest⟩ := modulo_of_apart left right apart
    have whole : q.toInt * b.toInt + m.toInt = a.toInt := by
      rw [quotient, remainder, Int.tdiv_mul_add_tmod]
    have between : Fits (q.toInt * b.toInt) := quotient ▸ fits_tdiv_mul a b.toInt
    have multiplies : ExactOrNull multiply (.int q) r (q.toInt * b.toInt) :=
      exactOrNull_of_mem_wholes rfl right (by simp [wholes])
    obtain ⟨p, product, multiplied⟩ := multiplies.1 between
    have adds : ExactOrNull add (.int p) (.int m) (p.toInt + m.toInt) :=
      exactOrNull_of_mem_wholes rfl rfl (by simp [wholes])
    rw [product, whole] at adds
    obtain ⟨c, sum, added⟩ := adds.1 (fits_toInt a)
    rw [Int64.toInt_inj] at sum
    refine ⟨q, m, p, divided, rest, whole.symm, ?_, ?_, multiplied, product, sum ▸ added⟩
    · exact remainder ▸ abs_tmod_lt a.toInt (ne_zero_of_apart apart)
    · exact remainder ▸ tmod_eq_zero_or_sign a.toInt b.toInt

/-- The least integer, as a text with blanks around it. -/
private def least : Value := .string " -9223372036854775808 "

/-- The least integer as text, divided by -7 and put together again. -/
theorem integer_arithmetic_least :
    least.asInt = some Int64.minValue ∧ (Value.int (-7)).asInt = some (-7) ∧
      add.apply least (.int (-7)) = .null ∧ divide.apply least (.int (-7)) ≠ .null ∧
      ∃ q m p : Int64, divide.apply least (.int (-7)) = .int q ∧
        modulo.apply least (.int (-7)) = .int m ∧ m ≠ 0 ∧
        multiply.apply (.int q) (.int (-7)) = .int p ∧
        add.apply (.int p) (.int m) = .int Int64.minValue := by
  have left : least.asInt = some Int64.minValue := by decide +kernel
  obtain ⟨wholes, null, proper⟩ := integer_arithmetic (r := .int (-7)) left rfl
  obtain ⟨q, m, p, divided, rest, whole, -, -, multiplied, -, added⟩ := proper (by decide)
  refine ⟨left, rfl, ?_, ?_, q, m, p, divided, rest, ?_, multiplied, added⟩
  · exact (wholes _ List.mem_cons_self).2 (by unfold Fits; decide)
  · exact fun improper => absurd ((null divide List.mem_cons_self).mp improper) (by decide)
  · rintro rfl
    have seven : (-7 : Int64).toInt = -7 := rfl
    rw [Int64.toInt_minValue, Int64.toInt_zero, seven] at whole
    omega

end InfixOp

end Stencil
