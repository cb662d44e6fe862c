import Stencil.Operators
import Stencil.Proofs.Decimal.Integer
import Stencil.Proofs.Decimal.Nearest
import Stencil.Proofs.Evaluation
import Stencil.Tags.Builtin

/-! # Comparing integers

The order of two integers is that of the integers. Their equality is looser: they are equal when one
of their projections agrees, and one projection takes them as doubles. All 64-bit integers of at
most 53 binary digits are doubles, so there nothing is lost. Beyond that, neighbours with the same
nearest double are equal, and one of them is still less than the other.
-/

namespace Stencil

open Decimal (nearestInt IsDouble)

namespace Value

theorem toInt_size (a : Int64) : a.toInt.natAbs.log2 ≤ 1022 := by
  have low := a.le_toInt
  have high := a.toInt_lt
  by_cases zero : a.toInt.natAbs = 0
  · rw [zero]
    decide
  · have digits : a.toInt.natAbs.log2 < 64 := (Nat.log2_lt zero).mpr (by omega)
    omega

/-- Two integers agree as floats if they have one nearest double. -/
theorem asFloat_int (a b : Int64) :
    agree Decimal.sameNumber (int a).asFloat (int b).asFloat =
      decide (nearestInt a.toInt = nearestInt b.toInt) :=
  Decimal.sameNumber_ofInt (toInt_size a) (toInt_size b)

/-- No other integer is written in the same way. -/
theorem asString_int {a b : Int64} (differs : a ≠ b) :
    agree (· == ·) (int a).asString (int b).asString = false := by
  refine beq_false_of_ne fun same => differs ?_
  have read := congrArg (fun text : String => Decimal.int64? text.toList) same
  rw [Decimal.toList_toString, Decimal.toList_toString, Decimal.int64?_signed,
    Decimal.int64?_signed] at read
  exact Option.some.inj read

/-- Two integers that are truth values are the same integer. -/
theorem asBool_int {a b : Int64} (differs : a ≠ b) :
    agree (· == ·) (int a).asBool (int b).asBool = false := by
  have read (c : Int64) : (int c).asBool =
      if c = 0 then some false else if c = 1 then some true else none := rfl
  rw [read, read]
  by_cases zero : a = 0
  · subst zero
    rw [if_pos rfl, if_neg differs.symm]
    split <;> rfl
  · rw [if_neg zero]
    by_cases one : a = 1
    · subst one
      rw [if_pos rfl, if_neg differs.symm]
      split <;> rfl
    · rw [if_neg one]
      rfl

/-- Two integers are equal when the same double is nearest to both. -/
theorem same_int (a b : Int64) :
    (int a).same (int b) = decide (nearestInt a.toInt = nearestInt b.toInt) := by
  have unfolded : (int a).same (int b) = ((int a).projectsLike (int b) || a == b) := by
    rw [same]
    · rfl
    · exact nofun
    · exact nofun
  rw [unfolded, projectsLike, asFloat_int]
  by_cases equal : a = b
  · subst equal
    simp
  · have apart : agree (· == ·) (int a).asInt (int b).asInt = false := beq_false_of_ne equal
    rw [asString_int equal, apart, asBool_int equal, beq_false_of_ne equal, Bool.false_or,
      Bool.false_or, Bool.or_false, Bool.or_false]

end Value

/-- The tag looks for an equal item. -/
theorem contains_gives {call : Call} {items : List Value} {item data : Value}
    (parameters : call.parameters = [.array items, item]) :
    (Tags.contains call).Gives data (.bool (items.any fun candidate => candidate.same item)) := by
  have counted : call.requireCount 2 = pure () := by
    rw [Call.requireCount, if_pos (by rw [parameters]; rfl)]
  unfold Tags.contains
  rw [counted, Call.parameter, Call.parameter, parameters]
  exact .pure _

/-- Of two 64-bit integers one is less than the other exactly when the integer is. They are equal
exactly when the same double is nearest to both, so that what is equal can still be less or greater,
but not when both have at most 53 binary digits. An array of integers contains an integer when it
contains one that is equal to it in this sense. -/
theorem integers_compared (a b : Int64) :
    InfixOp.less.apply (.int a) (.int b) = .bool (decide (a.toInt < b.toInt)) ∧
    InfixOp.greater.apply (.int a) (.int b) = .bool (decide (b.toInt < a.toInt)) ∧
    InfixOp.equal.apply (.int a) (.int b) =
      .bool (decide (nearestInt a.toInt = nearestInt b.toInt)) ∧
    ((Value.int a).same (.int b) = true ↔ nearestInt a.toInt = nearestInt b.toInt) ∧
    (∀ (call : Call) (items : List Int64),
      call.parameters = [.array (items.map .int), .int b] → ∀ data,
        (Tags.contains call).Gives data
          (.bool (decide (∃ item ∈ items, nearestInt item.toInt = nearestInt b.toInt)))) ∧
    (IsDouble (nearestInt a.toInt) ∧ ∀ double, IsDouble double →
      (a.toInt - nearestInt a.toInt).natAbs ≤ (a.toInt - double).natAbs) ∧
    (IsDouble a.toInt → IsDouble b.toInt →
      (nearestInt a.toInt = nearestInt b.toInt ↔ a = b)) ∧
    (a.toInt.natAbs ≤ 2 ^ 53 → IsDouble a.toInt) := by
  have less : InfixOp.less.apply (.int a) (.int b) = .bool (compare a.toInt b.toInt == .lt) := rfl
  have greater : InfixOp.greater.apply (.int a) (.int b) =
      .bool (compare a.toInt b.toInt == .gt) := rfl
  have equal := Value.same_int a b
  refine ⟨?_, ?_, congrArg Value.bool equal, ?_, ?_, Decimal.nearestInt_spec _, ?_,
    Decimal.isDouble_of_le⟩
  · rw [less, Value.bool.injEq, Bool.eq_iff_iff, beq_iff_eq, decide_eq_true_iff]
    exact compare_lt_iff_lt
  · rw [greater, Value.bool.injEq, Bool.eq_iff_iff, beq_iff_eq, decide_eq_true_iff]
    exact compare_gt_iff_gt
  · rw [equal, decide_eq_true_iff]
  · intro call items parameters data
    have among : (items.map Value.int).any (fun candidate => candidate.same (.int b)) =
        decide (∃ item ∈ items, nearestInt item.toInt = nearestInt b.toInt) := by
      rw [List.any_map, Bool.eq_iff_iff, List.any_eq_true, decide_eq_true_iff]
      simp only [Function.comp_apply, Value.same_int, decide_eq_true_iff]
    exact among ▸ contains_gives parameters
  · intro left right
    rw [Decimal.nearestInt_of_isDouble left, Decimal.nearestInt_of_isDouble right]
    exact Int64.toInt_inj

/-- Of two neighbours beyond 53 binary digits, which are equal, one is less than the other. -/
theorem not_integers_compared :
    ¬ ∀ a b : Int64,
      InfixOp.less.apply (.int a) (.int b) = .bool (decide (a.toInt < b.toInt)) ∧
      InfixOp.equal.apply (.int a) (.int b) = .bool (decide (a = b)) ∧
      InfixOp.greater.apply (.int a) (.int b) = .bool (decide (b.toInt < a.toInt)) := by
  intro claimed
  have exact := (claimed 9007199254740992 9007199254740993).2.1
  have loose := congrArg Value.bool (Value.same_int 9007199254740992 9007199254740993)
  exact absurd (Value.bool.inj (exact.symm.trans loose)) (by decide)

end Stencil
