import Mathlib
import Stencil.Decimal.Binary

/-! # Integers as doubles

A double has 53 binary digits, so an integer beyond them is rounded to one of the doubles around it:
the nearer, and of two that are equally near the one whose last digit is even. The bits that the
conversion puts together stand for exactly that number, so integers as doubles can be compared
without looking at bits.
-/

namespace Stencil.Decimal

/-! ## Bits -/

/-- The bits of a double that is a number or infinite are read back. -/
theorem toBits_ofBits {bits : UInt64} (number : bits.toNat / 2 ^ 52 % 2 ^ 11 ≠ 2047) :
    (Float.ofBits bits).toBits = bits := by
  have valid : Float.Model.Format.binary64.Valid bits.toBitVec := by
    refine ⟨fun ones => absurd ?_ number⟩
    have read := congrArg BitVec.toNat ones
    simp [Float.Model.UnpackedFloat.unpackExponent] at read
    rw [Nat.shiftRight_eq_div_pow] at read
    exact read
  exact congrArg Float.toBits (Float.ofBits_toBits (.ofModel ⟨bits, valid⟩))

theorem toNat_magnitude {negative : Bool} {magnitude : Nat} (small : magnitude < 2 ^ 63) :
    (UInt64.ofNat (magnitude + if negative then 2 ^ 63 else 0)).toNat =
      magnitude + if negative then 2 ^ 63 else 0 := by
  have wide : 2 ^ 63 + 2 ^ 63 = 2 ^ 64 := rfl
  rw [UInt64.toNat_ofNat_of_lt']
  change _ < 2 ^ 64
  split <;> omega

/-- The fields of a double are read back from its sign and magnitude. -/
theorem ofFloat_ofMagnitude (negative : Bool) {magnitude : Nat}
    (number : magnitude < 2047 * 2 ^ 52) :
    Binary.ofFloat (ofMagnitude negative magnitude) =
      if magnitude / 2 ^ 52 = 0 then .finite negative (magnitude % 2 ^ 52) (-1074)
      else .finite negative (magnitude % 2 ^ 52 + 2 ^ 52)
        ((magnitude / 2 ^ 52 : Nat) - 1075) := by
  have positive := Nat.two_pow_pos 52
  have top : 2 ^ 63 = 2048 * 2 ^ 52 := rfl
  have eleven : 2 ^ 11 = 2048 := rfl
  have exponent : magnitude / 2 ^ 52 < 2047 := (Nat.div_lt_iff_lt_mul positive).mpr number
  have small : magnitude / 2 ^ 52 < 2 ^ 11 := Nat.lt_trans exponent (by decide)
  have sign : (UInt64.ofNat (magnitude + if negative then 2 ^ 63 else 0)).toNat =
      magnitude + if negative then 2 ^ 63 else 0 := toNat_magnitude (by omega)
  have above : (magnitude + if negative then 2 ^ 63 else 0) / 2 ^ 52 % 2 ^ 11 =
      magnitude / 2 ^ 52 := by
    cases negative with
    | false => exact Nat.mod_eq_of_lt small
    | true =>
      have twice : 2048 = 2 ^ 11 := rfl
      rw [if_pos rfl, top, Nat.add_mul_div_right _ _ positive, twice, Nat.add_mod_right,
        Nat.mod_eq_of_lt small]
  have below : (magnitude + if negative then 2 ^ 63 else 0) % 2 ^ 52 = magnitude % 2 ^ 52 := by
    cases negative with
    | false => simp
    | true => rw [if_pos rfl, top, Nat.add_mul_mod_self_right]
  have first : (magnitude + if negative then 2 ^ 63 else 0) / 2 ^ 63 =
      if negative then 1 else 0 := by
    cases negative with
    | false =>
      simp only [Bool.false_eq_true, if_false, Nat.add_zero]
      exact Nat.div_eq_of_lt (by omega)
    | true =>
      rw [if_pos rfl, if_pos rfl, Nat.add_div_right _ (Nat.two_pow_pos 63),
        Nat.div_eq_of_lt (by omega)]
  have bits : (ofMagnitude negative magnitude).toBits =
      UInt64.ofNat (magnitude + if negative then 2 ^ 63 else 0) :=
    toBits_ofBits (by rw [Nat.pow_eq, sign, above]; exact Nat.ne_of_lt exponent)
  unfold Binary.ofFloat
  simp only [Nat.pow_eq, bits, sign, above, below, first]
  rw [if_neg (Nat.ne_of_lt exponent)]
  cases negative <;> rfl

/-- A normal double is read back from its mantissa and exponent. -/
theorem ofFloat_ofParts (negative : Bool) {mantissa : Nat} {exponent : Int}
    (low : 2 ^ 52 ≤ mantissa) (high : mantissa < 2 ^ 53) (least : -1074 ≤ exponent)
    (greatest : exponent ≤ 971) :
    Binary.ofFloat (ofParts negative mantissa exponent) = .finite negative mantissa exponent := by
  have positive := Nat.two_pow_pos 52
  have double : 2 ^ 53 = 2 ^ 52 * 2 := rfl
  have digits : mantissa.log2 = 52 :=
    (Nat.log2_eq_iff (by omega)).mpr ⟨low, high⟩
  have same : max (-1074) (exponent - ((52 - 52 : Nat) : Int)) = exponent := by omega
  have made : ofParts negative mantissa exponent =
      ofMagnitude negative ((exponent + 1075).toNat * 2 ^ 52 + (mantissa - 2 ^ 52)) := by
    unfold ofParts
    simp only [digits, same, Int.sub_self, Int.toNat_zero, Nat.pow_eq, Nat.pow_zero, Nat.mul_one]
    exact if_neg (by omega)
  have places : ((exponent + 1075).toNat * 2 ^ 52 + (mantissa - 2 ^ 52)) / 2 ^ 52 =
      (exponent + 1075).toNat := by
    rw [Nat.add_comm, Nat.add_mul_div_right _ _ positive, Nat.div_eq_of_lt (by omega),
      Nat.zero_add]
  have rest : ((exponent + 1075).toNat * 2 ^ 52 + (mantissa - 2 ^ 52)) % 2 ^ 52 =
      mantissa - 2 ^ 52 := by
    rw [Nat.add_comm, Nat.add_mul_mod_self_right, Nat.mod_eq_of_lt (by omega)]
  have bounded : (exponent + 1075).toNat * 2 ^ 52 ≤ 2046 * 2 ^ 52 :=
    Nat.mul_le_mul_right _ (by omega)
  have number : (exponent + 1075).toNat * 2 ^ 52 + (mantissa - 2 ^ 52) < 2047 * 2 ^ 52 := by
    omega
  have normal : (exponent + 1075).toNat ≠ 0 := by omega
  rw [made, ofFloat_ofMagnitude negative number, places, rest, if_neg normal,
    Nat.sub_add_cancel low, Int.toNat_of_nonneg (by omega), Int.add_sub_cancel]

/-! ## Rounding -/

/-- A whole number is rounded to itself. -/
theorem roundHalfEven_one (n : Nat) : roundHalfEven n 1 = n := by
  unfold roundHalfEven
  simp [Nat.mod_one]

/-- A rounded quotient is off by half at most. -/
theorem roundHalfEven_near (num : Nat) {den : Nat} (positive : 0 < den) :
    2 * (roundHalfEven num den * den) ≤ 2 * num + den ∧
      2 * num ≤ 2 * (roundHalfEven num den * den) + den := by
  have split := Nat.div_add_mod num den
  have rest := Nat.mod_lt num positive
  rw [Nat.mul_comm] at split
  have more : (num / den + 1) * den = num / den * den + den := Nat.succ_mul _ _
  have same : (num / den + 0) * den = num / den * den := rfl
  unfold roundHalfEven
  dsimp only
  split
  · omega
  · split
    · omega
    · rcases Nat.mod_two_eq_zero_or_one (num / den) with even | odd
      · rw [even]; omega
      · rw [odd]; omega

/-- A rounded quotient is no less than a whole number that the quotient is no less than. -/
theorem le_roundHalfEven {num den low : Nat} (positive : 0 < den) (above : low * den ≤ num) :
    low ≤ roundHalfEven num den := by
  have near := roundHalfEven_near num positive
  refine Nat.le_of_not_lt fun less => ?_
  have next : (roundHalfEven num den + 1) * den ≤ low * den := Nat.mul_le_mul_right _ less
  rw [Nat.succ_mul] at next
  omega

/-- Rounding does not go beyond a whole number that is above. -/
theorem roundHalfEven_le {num den high : Nat} (positive : 0 < den) (below : num ≤ high * den) :
    roundHalfEven num den ≤ high := by
  have near := roundHalfEven_near num positive
  refine Nat.le_of_not_lt fun more => ?_
  have next : (high + 1) * den ≤ roundHalfEven num den * den := Nat.mul_le_mul_right _ more
  rw [Nat.succ_mul] at next
  omega

/-! ## Integers as doubles -/

/-- How far apart the doubles around a number are: they have 53 binary digits. Up to there all
integers are doubles. -/
def spacing (n : Nat) : Nat := 2 ^ (n.log2 - 52)

/-- The double nearest to a natural number, as a number again; a half goes to the even neighbour. -/
def nearestNat (n : Nat) : Nat := roundHalfEven n (spacing n) * spacing n

def nearestInt (i : Int) : Int := if i < 0 then -nearestNat i.natAbs else nearestNat i.natAbs

/-- The integer is a double: a number of at most 53 binary digits, times a power of two. -/
def IsDouble (i : Int) : Prop :=
  ∃ mantissa exponent, mantissa ≤ 2 ^ 53 ∧ i.natAbs = mantissa * 2 ^ exponent

theorem spacing_pos (n : Nat) : 0 < spacing n := Nat.two_pow_pos _

/-- Up to 53 binary digits a number is a double itself. -/
theorem nearestNat_of_narrow {n : Nat} (narrow : n.log2 ≤ 52) : nearestNat n = n := by
  have unit : spacing n = 1 := by rw [spacing, Nat.sub_eq_zero_of_le narrow, Nat.pow_zero]
  rw [nearestNat, unit, roundHalfEven_one, Nat.mul_one]

/-- The last of 53 binary digits counts the spacing. -/
theorem le_spacing (n : Nat) : n ≤ 2 ^ 53 * spacing n := by
  have high : n < 2 ^ (n.log2 + 1) := Nat.lt_log2_self
  have digits : 2 ^ (n.log2 + 1) ≤ 2 ^ 53 * spacing n := by
    rw [spacing, ← Nat.pow_add]
    exact Nat.pow_le_pow_right (by decide) (by omega)
  omega

theorem floorLog2_one {n : Nat} (positive : 0 < n) : floorLog2 n 1 = n.log2 := by
  have below : 2 ^ n.log2 ≤ n := Nat.log2_self_le (by omega)
  have one : Nat.log2 1 = 0 := by decide
  have reached : n * 2 ^ (-(n.log2 : Int)).toNat ≥ 1 * 2 ^ (n.log2 : Int).toNat := by
    simpa using below
  unfold floorLog2
  simp only [one, Int.ofNat_zero, Int.sub_zero, Nat.pow_eq, if_pos reached]

/-- The scaled number has 53 binary digits, or is the next power of two. -/
theorem scaledRound_spec {n : Nat} (positive : 0 < n) :
    (2 ^ 52 ≤ scaledRound n 1 ((n.log2 : Int) - 52) ∧
      scaledRound n 1 ((n.log2 : Int) - 52) ≤ 2 ^ 53) ∧
    scaledRound n 1 ((n.log2 : Int) - 52) * 2 ^ (n.log2 + 1022) = nearestNat n * 2 ^ 1074 := by
  have low : 2 ^ n.log2 ≤ n := Nat.log2_self_le (by omega)
  have high : n < 2 ^ (n.log2 + 1) := Nat.lt_log2_self
  rcases Nat.le_total 52 n.log2 with wide | narrow
  · have up : (-((n.log2 : Int) - 52)).toNat = 0 := by omega
    have down : ((n.log2 : Int) - 52).toNat = n.log2 - 52 := by omega
    have scaled : scaledRound n 1 ((n.log2 : Int) - 52) = roundHalfEven n (spacing n) := by
      rw [scaledRound, up, down, Nat.pow_eq, Nat.pow_eq, Nat.pow_zero, Nat.mul_one, Nat.one_mul,
        spacing]
    have least : 2 ^ 52 * spacing n ≤ n := by
      rw [spacing, ← Nat.pow_add, Nat.add_sub_cancel' wide]
      exact low
    refine ⟨scaled ▸ ⟨le_roundHalfEven (spacing_pos n) least,
      roundHalfEven_le (spacing_pos n) (le_spacing n)⟩, ?_⟩
    rw [scaled, nearestNat, Nat.mul_assoc, spacing, ← Nat.pow_add,
      show n.log2 - 52 + 1074 = n.log2 + 1022 by omega]
  · have up : (-((n.log2 : Int) - 52)).toNat = 52 - n.log2 := by omega
    have down : ((n.log2 : Int) - 52).toNat = 0 := by omega
    have scaled : scaledRound n 1 ((n.log2 : Int) - 52) = n * 2 ^ (52 - n.log2) := by
      rw [scaledRound, up, down, Nat.pow_eq, Nat.pow_eq, Nat.pow_zero, Nat.mul_one,
        roundHalfEven_one]
    refine ⟨scaled ▸ ⟨?_, ?_⟩, ?_⟩
    · calc
        2 ^ 52 = 2 ^ n.log2 * 2 ^ (52 - n.log2) := by
          rw [← Nat.pow_add, Nat.add_sub_cancel' narrow]
        _ ≤ n * 2 ^ (52 - n.log2) := Nat.mul_le_mul_right _ low
    · calc
        n * 2 ^ (52 - n.log2) ≤ 2 ^ (n.log2 + 1) * 2 ^ (52 - n.log2) :=
          Nat.mul_le_mul_right _ (Nat.le_of_lt high)
        _ = 2 ^ 53 := by rw [← Nat.pow_add, show n.log2 + 1 + (52 - n.log2) = 53 by omega]
    · have places : 52 - n.log2 + (n.log2 + 1022) = 1074 := by omega
      rw [scaled, nearestNat_of_narrow narrow, Nat.mul_assoc, ← Nat.pow_add]
      exact congrArg (n * 2 ^ ·) places

/-- A positive integer is rounded to a double that is a number. -/
theorem nearest_double {n : Nat} (positive : 0 < n) (bound : n.log2 ≤ 1022) :
    ∃ mantissa exponent, double.nearest n 1 = some (mantissa, exponent) ∧
      2 ^ 52 ≤ mantissa ∧ mantissa < 2 ^ 53 ∧ -1074 ≤ exponent ∧ exponent ≤ 971 ∧
      mantissa * 2 ^ (exponent + 1074).toNat = nearestNat n * 2 ^ 1074 := by
  obtain ⟨⟨least, most⟩, same⟩ := scaledRound_spec positive
  have exponent : max (-1074) (floorLog2 n 1 - (53 : Nat) + 1) = (n.log2 : Int) - 52 := by
    rw [floorLog2_one positive]
    omega
  have places : ((n.log2 : Int) - 52 + 1074).toNat = n.log2 + 1022 := by omega
  unfold Format.nearest double
  simp only [exponent, Nat.pow_eq]
  by_cases carried : scaledRound n 1 ((n.log2 : Int) - 52) = 2 ^ 53
  · refine ⟨2 ^ 52, (n.log2 : Int) - 52 + 1, ?_, Nat.le_refl _, ?_, by omega, by omega, ?_⟩
    · rw [if_pos carried, if_pos (by omega)]
    · have double : 2 ^ 53 = 2 ^ 52 * 2 := rfl
      have positive := Nat.two_pow_pos 52
      omega
    · have higher : ((n.log2 : Int) - 52 + 1 + 1074).toNat = 1 + (n.log2 + 1022) := by omega
      rw [← same, carried, higher, Nat.pow_add, ← Nat.mul_assoc]
      rfl
  · have short := Nat.lt_of_le_of_ne most carried
    refine ⟨_, (n.log2 : Int) - 52, ?_, least, short, by omega, by omega, ?_⟩
    · rw [if_neg carried, if_pos (by omega)]
    · rw [places]
      exact same

theorem nearestNat_zero : nearestNat 0 = 0 := by decide

/-- The double of an integer stands for the nearest double. -/
theorem place?_ofInt {i : Int} (bound : i.natAbs.log2 ≤ 1022) :
    (Binary.ofFloat (ofInt i)).place? = some (nearestInt i * 2 ^ 1074) := by
  have whole : ∃ mantissa exponent, Binary.ofFloat (ofInt i) =
      .finite (decide (i < 0)) mantissa exponent ∧
      mantissa * 2 ^ (exponent + 1074).toNat = nearestNat i.natAbs * 2 ^ 1074 := by
    unfold ofInt Format.round
    by_cases zero : i.natAbs = 0
    · rw [if_pos zero, zero, nearestNat_zero, Nat.zero_mul]
      refine ⟨0, -1074, ?_, Nat.zero_mul _⟩
      rw [ofFloat_ofMagnitude _ (Nat.mul_pos (by decide) (Nat.two_pow_pos 52)), Nat.zero_div,
        if_pos rfl, Nat.zero_mod]
    · obtain ⟨mantissa, exponent, found, low, high, least, greatest, same⟩ :=
        nearest_double (Nat.pos_of_ne_zero zero) bound
      rw [if_neg zero, found]
      exact ⟨mantissa, exponent, ofFloat_ofParts _ low high least greatest, same⟩
  obtain ⟨mantissa, exponent, read, same⟩ := whole
  rw [read, Binary.place?, nearestInt]
  rw [Nat.pow_eq, same, Int.natCast_mul, Int.natCast_pow, Nat.cast_ofNat]
  by_cases negative : i < 0
  · rw [if_pos negative, if_pos (decide_eq_true negative), Int.neg_mul]
  · rw [if_neg negative, if_neg (by simpa using negative)]

/-! ## The nearest double -/

/-- No multiple of the spacing is nearer. -/
theorem nearestNat_near_multiple (n c : Nat) :
    ((n : Int) - nearestNat n).natAbs ≤ ((n : Int) - (c * spacing n : Nat)).natAbs := by
  obtain ⟨above, below⟩ := roundHalfEven_near n (spacing_pos n)
  unfold nearestNat
  rcases Nat.lt_trichotomy c (roundHalfEven n (spacing n)) with less | same | more
  · have apart : (c + 1) * spacing n ≤ roundHalfEven n (spacing n) * spacing n :=
      Nat.mul_le_mul_right _ less
    rw [Nat.succ_mul] at apart
    omega
  · rw [same]
  · have apart : (roundHalfEven n (spacing n) + 1) * spacing n ≤ c * spacing n :=
      Nat.mul_le_mul_right _ more
    rw [Nat.succ_mul] at apart
    omega

/-- Where doubles are apart those that are as large are multiples of the spacing. -/
theorem spacing_dvd {n mantissa exponent : Nat} (wide : 52 < n.log2) (short : mantissa ≤ 2 ^ 53)
    (large : 2 ^ 52 * spacing n ≤ mantissa * 2 ^ exponent) :
    spacing n ∣ mantissa * 2 ^ exponent := by
  rcases Nat.le_total (n.log2 - 52) exponent with fine | coarse
  · exact Nat.dvd_mul_left_of_dvd (Nat.pow_dvd_pow 2 fine) mantissa
  · by_cases equal : exponent = n.log2 - 52
    · exact equal ▸ Nat.dvd_mul_left _ mantissa
    · have most : mantissa * 2 ^ exponent ≤ 2 ^ 52 * spacing n := by
        calc
          mantissa * 2 ^ exponent ≤ 2 ^ 53 * 2 ^ (n.log2 - 53) :=
            Nat.mul_le_mul short (Nat.pow_le_pow_right (by decide) (by omega))
          _ = 2 ^ 52 * spacing n := by
            rw [spacing, ← Nat.pow_add, ← Nat.pow_add]
            congr 1
            omega
      exact Nat.le_antisymm most large ▸ Nat.dvd_mul_left _ _

/-- No number of 53 binary digits and zeros is nearer than the one a number is rounded to. -/
theorem nearestNat_near (n : Nat) {mantissa : Nat} (short : mantissa ≤ 2 ^ 53) (exponent : Nat) :
    ((n : Int) - nearestNat n).natAbs ≤
      ((n : Int) - (mantissa * 2 ^ exponent : Nat)).natAbs := by
  rcases Nat.lt_or_ge 52 n.log2 with wide | narrow
  · rcases Nat.le_total (2 ^ 52 * spacing n) (mantissa * 2 ^ exponent) with large | small
    · obtain ⟨c, same⟩ := spacing_dvd wide short large
      rw [same, Nat.mul_comm]
      exact nearestNat_near_multiple n c
    · -- The least number with as many digits is a multiple, and no smaller number is nearer.
      have least : 2 ^ 52 * spacing n ≤ n := by
        rw [spacing, ← Nat.pow_add, Nat.add_sub_cancel' (Nat.le_of_lt wide)]
        exact Nat.log2_self_le (by rintro rfl; exact absurd wide (by decide))
      have near := nearestNat_near_multiple n (2 ^ 52)
      omega
  · rw [nearestNat_of_narrow narrow]
    omega

/-- The nearest double is one, and no other is nearer. -/
theorem nearestInt_spec (i : Int) : IsDouble (nearestInt i) ∧
    ∀ other, IsDouble other → (i - nearestInt i).natAbs ≤ (i - other).natAbs := by
  have size : (nearestInt i).natAbs = nearestNat i.natAbs := by
    unfold nearestInt
    split <;> omega
  constructor
  · have most := roundHalfEven_le (spacing_pos i.natAbs) (le_spacing i.natAbs)
    exact ⟨_, _, most, size⟩
  · rintro other ⟨mantissa, exponent, short, same⟩
    have near := nearestNat_near i.natAbs short exponent
    rw [← same] at near
    unfold nearestInt
    split <;> omega

/-- A double is the one nearest to itself. -/
theorem nearestInt_of_isDouble {i : Int} (double : IsDouble i) : nearestInt i = i := by
  have near := (nearestInt_spec i).2 i double
  omega

/-- Up to 53 binary digits every integer is a double. -/
theorem isDouble_of_le {i : Int} (small : i.natAbs ≤ 2 ^ 53) : IsDouble i :=
  ⟨i.natAbs, 0, small, (Nat.mul_one _).symm⟩

/-- As doubles two integers are the same number when the same double is nearest to both. -/
theorem sameNumber_ofInt {a b : Int} (left : a.natAbs.log2 ≤ 1022)
    (right : b.natAbs.log2 ≤ 1022) :
    sameNumber (ofInt a) (ofInt b) = decide (nearestInt a = nearestInt b) := by
  have positive := Nat.two_pow_pos 1074
  have order : compare? (ofInt a) (ofInt b) =
      some (compare (nearestInt a * 2 ^ 1074) (nearestInt b * 2 ^ 1074)) := by
    unfold compare?
    rw [place?_ofInt left, place?_ofInt right]
    rfl
  have scaled : nearestInt a * 2 ^ 1074 = nearestInt b * 2 ^ 1074 ↔
      nearestInt a = nearestInt b :=
    ⟨Int.eq_of_mul_eq_mul_right (by omega), fun same => by rw [same]⟩
  rw [sameNumber, order, Bool.eq_iff_iff, beq_iff_eq, Option.some_inj, decide_eq_true_iff,
    compare_eq_iff_eq]
  exact scaled

end Stencil.Decimal
