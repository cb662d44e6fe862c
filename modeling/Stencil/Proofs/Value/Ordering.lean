import Mathlib.Order.Compare
import Stencil.Operators
import Stencil.Proofs.Value.Equality

/-! # The order of two values

Two values are compared as integers, failing that as floats, and failing that as texts. Which of the
three it is depends on both of them, and is the same either way round. So the operators on an order
agree with each other: turning the operands turns the order, and of less, greater and neither one
holds at most. What is neither less nor greater is equal, by the projection that compared it.
-/

namespace Stencil.InfixOp

open Value

/-- The domain in which two values are compared, with the order that they have there. -/
inductive Compared : Value → Value → Option Ordering → Prop
  | ints {a b : Value} {i j : Int64} (left : a.asInt = some i) (right : b.asInt = some j) :
      Compared a b (some (compare i.toInt j.toInt))
  | floats {a b : Value} {x y : Float} (mixed : a.asInt = none ∨ b.asInt = none)
      (left : a.asFloat = some x) (right : b.asFloat = some y) :
      Compared a b (Decimal.compare? x y)
  | texts {s t : String} (mixed : (string s).asInt = none ∨ (string t).asInt = none)
      (worded : (string s).asFloat = none ∨ (string t).asFloat = none) :
      Compared (string s) (string t) (some (compare s t))
  | apart {a b : Value} (mixed : a.asInt = none ∨ b.asInt = none)
      (worded : a.asFloat = none ∨ b.asFloat = none)
      (unlike : ∀ s t, a = string s → b ≠ string t) : Compared a b none

variable {a b : Value} {order : Option Ordering}

private theorem none_of_not_both {α β : Type} {x : Option α} {y : Option β}
    (apart : ∀ i j, x = some i → y = some j → False) : x = none ∨ y = none := by
  match x, y with
  | none, _ => exact .inl rfl
  | some _, none => exact .inr rfl
  | some i, some j => exact (apart i j rfl rfl).elim

theorem compared_order? (a b : Value) : Compared a b (order? a b) := by
  unfold order?
  split
  · exact .ints ‹_› ‹_›
  · rename_i mixed
    have mixed := none_of_not_both mixed
    split
    · exact .floats mixed ‹_› ‹_›
    · rename_i worded
      have worded := none_of_not_both worded
      split
      · exact .texts mixed worded
      · rename_i unlike
        exact .apart mixed worded unlike

/-- The domain of two values is the only one, and so is their order. -/
theorem Compared.eq_order? (compared : Compared a b order) : order? a b = order := by
  unfold order?
  cases compared with
  | ints left right => rw [left, right]
  | floats mixed left right =>
    rw [left, right]
    obtain none | none := mixed <;> simp [none]
  | texts mixed worded =>
    obtain none | none := mixed <;> obtain none' | none' := worded <;> simp [none, none']
  | apart mixed worded unlike =>
    obtain none | none := mixed <;> obtain none' | none' := worded <;> simp [none, none']

/-- The comparison swaps with its operands. -/
theorem Compared.swap (compared : Compared a b order) :
    Compared b a (order.map Ordering.swap) := by
  cases compared with
  | ints left right =>
    rw [Option.map_some, Int.compare_swap]
    exact .ints right left
  | floats mixed left right =>
    rw [Decimal.compare?_swap]
    exact .floats mixed.symm right left
  | @texts s t mixed worded =>
    rw [Option.map_some, ← Std.OrientedOrd.eq_swap]
    exact .texts mixed.symm worded.symm
  | apart mixed worded unlike =>
    exact .apart mixed.symm worded.symm fun s t right left => unlike t s left right

/-- Turning the operands turns their order, where they have one. -/
theorem order?_swap (a b : Value) : (order? a b).map Ordering.swap = order? b a :=
  (compared_order? a b).swap.eq_order?.symm

/-! ## Equality -/

theorem scalar_of_asInt {i : Int64} (number : a.asInt = some i) :
    a.isArray = false ∧ a.isMap = false := by
  cases a <;> first | exact ⟨rfl, rfl⟩ | cases number

theorem scalar_of_asFloat {x : Float} (number : a.asFloat = some x) :
    a.isArray = false ∧ a.isMap = false := by
  cases a <;> first | exact ⟨rfl, rfl⟩ | cases number

/-- Two values in order are equal by a projection when they are neither less nor greater: the one in
which they were compared. -/
theorem Compared.projectsLike (compared : Compared a b order) (level : order = some .eq) :
    a.projectsLike b = true ∧ a.isArray = false ∧ a.isMap = false := by
  cases compared with
  | ints left right =>
    have equal := Int64.toInt_inj.mp (Std.LawfulEqOrd.eq_of_compare (Option.some.inj level))
    exact ⟨by simp [Value.projectsLike, left, right, agree, equal], scalar_of_asInt left⟩
  | floats _ left right =>
    exact ⟨by simp [Value.projectsLike, left, right, agree, Decimal.sameNumber, level],
      scalar_of_asFloat left⟩
  | texts =>
    have equal := Std.LawfulEqOrd.eq_of_compare (Option.some.inj level)
    exact ⟨by simp [Value.projectsLike, asString, agree, equal], rfl, rfl⟩
  | apart => cases level

/-- Values that are level are equal. -/
theorem same_of_order?_eq (level : order? a b = some .eq) : a.same b = true := by
  obtain ⟨projected, array, map⟩ := (compared_order? a b).projectsLike level
  rw [same_of_apart (by rw [array]; rfl) (by rw [map]; rfl), projected, Bool.true_or]

/-! ## The operators -/

def orderings : List InfixOp := [less, greater, lessOrEqual, greaterOrEqual]

variable {op : InfixOp}

theorem apply_of_mem_orderings (member : op ∈ orderings) :
    op.apply a b = ((order? a b).map fun order => .bool (op.admits order)).getD .null := by
  simp only [orderings, List.mem_cons, List.not_mem_nil, or_false] at member
  obtain rfl | rfl | rfl | rfl := member <;> rfl

theorem apply_of_order? {ordering : Ordering} (member : op ∈ orderings)
    (found : order? a b = some ordering) : op.apply a b = .bool (op.admits ordering) := by
  rw [apply_of_mem_orderings member, found]
  rfl

/-- The operators on an order are coherent with each other and with equality. Turning the operands
turns less into greater. Either all four are null, or all are truth values; then exactly one holds
of less, greater, and the other two together, each of which excludes the opposite of its own; and
where the two hold together the values are equal. -/
theorem orderings_coherent (a b : Value) :
    less.apply a b = greater.apply b a ∧ lessOrEqual.apply a b = greaterOrEqual.apply b a ∧
      ((∀ op ∈ orderings, op.apply a b = .null) ∨
        ∃ lt gt le ge, less.apply a b = .bool lt ∧ greater.apply a b = .bool gt ∧
          lessOrEqual.apply a b = .bool le ∧ greaterOrEqual.apply a b = .bool ge ∧
          [lt, gt, le && ge].count true = 1 ∧ le = !gt ∧ ge = !lt ∧
          (le = true → ge = true → equal.apply a b = .bool true)) := by
  have turned := order?_swap a b
  cases found : order? a b with
  | none =>
    rw [found, Option.map_none] at turned
    have null : ∀ op ∈ orderings, ∀ x y, order? x y = none → op.apply x y = .null := by
      intro op member x y none
      rw [apply_of_mem_orderings member, none]
      rfl
    refine ⟨?_, ?_, .inl fun op member => null op member a b found⟩
    · rw [null less (by decide) a b found, null greater (by decide) b a turned.symm]
    · rw [null _ (by decide) a b found, null _ (by decide) b a turned.symm]
  | some ordering =>
    rw [found, Option.map_some] at turned
    have here {op : InfixOp} (member : op ∈ orderings) := apply_of_order? member found
    have there {op : InfixOp} (member : op ∈ orderings) := apply_of_order? member turned.symm
    refine ⟨?_, ?_, .inr ⟨_, _, _, _, here (by decide), here (by decide), here (by decide),
      here (by decide), ?_⟩⟩
    · rw [here (by decide), there (by decide)]
      cases ordering <;> rfl
    · rw [here (by decide), there (by decide)]
      cases ordering <;> rfl
    · have level (eq : ordering = .eq) : equal.apply a b = .bool true :=
        congrArg Value.bool (same_of_order?_eq (eq ▸ found))
      cases ordering with
      | lt => exact ⟨rfl, rfl, rfl, fun _ => nofun⟩
      | eq => exact ⟨rfl, rfl, rfl, fun _ _ => level rfl⟩
      | gt => exact ⟨rfl, rfl, rfl, nofun⟩

end Stencil.InfixOp
