import Stencil.Text.Utf8

/-! # Writing and reading UTF-8

Reading the bytes of a text gives the text back, and what follows them is read as if it stood
alone. The leading byte of a sequence decides which range the next one must lie in; the least
and the greatest code point of every length lie just inside of these ranges.
-/

namespace Stencil.Utf8

theorem toNat_ofNat {n : Nat} (small : n < 256) : (UInt8.ofNat n).toNat = n := by
  simp [Nat.mod_eq_of_lt small]

/-- The sequence that a leading byte of two or more begins. -/
theorem begun?_ofNat {n : Nat} (low : 0xC2 ≤ n) (high : n ≤ 0xF4) :
    begun? (UInt8.ofNat n) = some (
      if n ≤ 0xDF then ⟨n - 0xC0, 1, 0x80, 0xBF⟩
      else if n ≤ 0xEF then
        ⟨n - 0xE0, 2, if n = 0xE0 then 0xA0 else 0x80, if n = 0xED then 0x9F else 0xBF⟩
      else ⟨n - 0xF0, 3, if n = 0xF0 then 0x90 else 0x80, if n = 0xF4 then 0x8F else 0xBF⟩) := by
  have small : (UInt8.ofNat n).toNat = n := toNat_ofNat (by omega)
  unfold begun?
  simp only [UInt8.le_iff_toNat_le, ← UInt8.toNat_inj, small, UInt8.reduceToNat]
  grind

/-- An ASCII byte is read as its character. -/
theorem scalars_ascii {n : Nat} (small : n < 0x80) (rest : List UInt8) :
    scalars none (UInt8.ofNat n :: rest) = some (Char.ofNat n) :: scalars none rest := by
  have same : (UInt8.ofNat n).toNat = n := toNat_ofNat (by omega)
  have ascii : UInt8.ofNat n < 0x80 := by
    rw [UInt8.lt_iff_toNat_lt, same]; exact small
  rw [scalars, scalars.first, if_pos ascii, same]

theorem scalars_lead {n : Nat} {s : Begun} (low : 0xC2 ≤ n) (high : n ≤ 0xF4)
    (begins : begun? (UInt8.ofNat n) = some s) (rest : List UInt8) :
    scalars none (UInt8.ofNat n :: rest) = scalars (some s) rest := by
  have same : (UInt8.ofNat n).toNat = n := toNat_ofNat (by omega)
  have far : ¬ UInt8.ofNat n < 0x80 := by
    rw [UInt8.lt_iff_toNat_lt, same]; simp; omega
  rw [scalars, scalars.first, if_neg far, begins]

/-- The last byte of a sequence adds six bits and gives its character. -/
theorem scalars_last {code m : Nat} {lowest highest : UInt8} (small : m < 64)
    (low : lowest.toNat ≤ m + 0x80) (high : m + 0x80 ≤ highest.toNat) (rest : List UInt8) :
    scalars (some ⟨code, 1, lowest, highest⟩) (UInt8.ofNat (m + 0x80) :: rest) =
      some (Char.ofNat (code * 64 + m)) :: scalars none rest := by
  have same : (UInt8.ofNat (m + 0x80)).toNat = m + 0x80 := toNat_ofNat (by omega)
  have within : lowest ≤ UInt8.ofNat (m + 0x80) ∧ UInt8.ofNat (m + 0x80) ≤ highest := by
    rw [UInt8.le_iff_toNat_le, UInt8.le_iff_toNat_le, same]; exact ⟨low, high⟩
  rw [scalars, if_pos within, if_pos rfl, same, Nat.add_sub_cancel]

/-- An earlier byte of a sequence adds six bits; any six may follow. -/
theorem scalars_more {code missing m : Nat} {lowest highest : UInt8} (small : m < 64)
    (low : lowest.toNat ≤ m + 0x80) (high : m + 0x80 ≤ highest.toNat) (rest : List UInt8) :
    scalars (some ⟨code, missing + 2, lowest, highest⟩) (UInt8.ofNat (m + 0x80) :: rest) =
      scalars (some ⟨code * 64 + m, missing + 1, 0x80, 0xBF⟩) rest := by
  have same : (UInt8.ofNat (m + 0x80)).toNat = m + 0x80 := toNat_ofNat (by omega)
  have within : lowest ≤ UInt8.ofNat (m + 0x80) ∧ UInt8.ofNat (m + 0x80) ≤ highest := by
    rw [UInt8.le_iff_toNat_le, UInt8.le_iff_toNat_le, same]; exact ⟨low, high⟩
  rw [scalars, if_pos within, if_neg (show ¬missing + 2 = 1 by omega), same,
    Nat.add_sub_cancel]
  rfl

theorem scalars_two {n a : Nat} (low : 0xC2 ≤ n) (high : n ≤ 0xDF) (smallA : a < 64)
    (rest : List UInt8) :
    scalars none (UInt8.ofNat n :: UInt8.ofNat (a + 0x80) :: rest) =
      some (Char.ofNat ((n - 0xC0) * 64 + a)) :: scalars none rest := by
  rw [scalars_lead low (by omega) (begun?_ofNat low (by omega)), if_pos high]
  exact scalars_last smallA (by simp) (by simp; omega) rest

/-- Three bytes, where the first two rule out what fits in fewer and the surrogates. -/
theorem scalars_three {n a b : Nat} (low : 0xE0 ≤ n) (high : n ≤ 0xEF) (smallA : a < 64)
    (smallB : b < 64) (long : n = 0xE0 → 0x20 ≤ a) (whole : n = 0xED → a < 0x20)
    (rest : List UInt8) :
    scalars none (UInt8.ofNat n :: UInt8.ofNat (a + 0x80) :: UInt8.ofNat (b + 0x80) :: rest) =
      some (Char.ofNat (((n - 0xE0) * 64 + a) * 64 + b)) :: scalars none rest := by
  rw [scalars_lead (by omega) (by omega) (begun?_ofNat (by omega) (by omega)),
    if_neg (by omega), if_pos high, scalars_more smallA]
  · exact scalars_last smallB (by simp) (by simp; omega) rest
  · split
    · have := long ‹_›; simp; omega
    · simp
  · split
    · have := whole ‹_›; simp; omega
    · simp; omega

/-- Four bytes, where the first two rule out what fits in fewer and what is past the end. -/
theorem scalars_four {n a b c : Nat} (low : 0xF0 ≤ n) (high : n ≤ 0xF4) (smallA : a < 64)
    (smallB : b < 64) (smallC : c < 64) (long : n = 0xF0 → 0x10 ≤ a) (inside : n = 0xF4 → a < 0x10)
    (rest : List UInt8) :
    scalars none (UInt8.ofNat n :: UInt8.ofNat (a + 0x80) :: UInt8.ofNat (b + 0x80) ::
        UInt8.ofNat (c + 0x80) :: rest) =
      some (Char.ofNat ((((n - 0xF0) * 64 + a) * 64 + b) * 64 + c)) :: scalars none rest := by
  rw [scalars_lead (by omega) (by omega) (begun?_ofNat (by omega) (by omega)),
    if_neg (by omega), if_neg (by omega), scalars_more smallA, scalars_more smallB]
  · exact scalars_last smallC (by simp) (by simp; omega) rest
  · simp
  · simp; omega
  · split
    · have := long ‹_›; simp; omega
    · simp
  · split
    · have := inside ‹_›; simp; omega
    · simp; omega

/-- The encoding of a character is read as that character. -/
theorem scalars_encodeChar (c : Char) (rest : List UInt8) :
    scalars none (String.utf8EncodeChar c ++ rest) = some c :: scalars none rest := by
  have valid : c.val.toNat < 0xD800 ∨ 0xDFFF < c.val.toNat ∧ c.val.toNat < 0x110000 := c.valid
  have same : Char.ofNat c.val.toNat = c := Char.ofNat_toNat c
  unfold String.utf8EncodeChar
  generalize c.val.toNat = v at valid same
  dsimp only
  split
  · rw [List.singleton_append, scalars_ascii (by omega), same]
  split
  · rw [List.cons_append, List.singleton_append, scalars_two (by omega) (by omega) (by omega),
      show (v / 64 % 32 + 0xC0 - 0xC0) * 64 + v % 64 = v by omega, same]
  split
  · rw [List.cons_append, List.cons_append, List.singleton_append,
      scalars_three (by omega) (by omega) (by omega) (by omega) (by omega) (by omega),
      show ((v / 4096 % 16 + 0xE0 - 0xE0) * 64 + v / 64 % 64) * 64 + v % 64 = v by omega, same]
  · rw [List.cons_append, List.cons_append, List.cons_append, List.singleton_append,
      scalars_four (by omega) (by omega) (by omega) (by omega) (by omega) (by omega) (by omega),
      show (((v / 262144 % 8 + 0xF0 - 0xF0) * 64 + v / 4096 % 64) * 64 + v / 64 % 64) * 64 +
        v % 64 = v by omega, same]

/-- A byte of ASCII occurs only where its character does. -/
theorem encodeChar_of_mem {c : Char} {b : UInt8} (member : b ∈ String.utf8EncodeChar c)
    (ascii : b.toNat < 0x80) : String.utf8EncodeChar c = [b] ∧ c.toNat = b.toNat := by
  have high {n : Nat} (small : n < 0x40) (same : b = UInt8.ofNat (n + 0x80)) : False := by
    rw [same, toNat_ofNat (by omega)] at ascii
    omega
  have lead {n base : Nat} (small : n + base < 256) (big : 0x80 ≤ base)
      (same : b = UInt8.ofNat (n + base)) : False := by
    rw [same, toNat_ofNat small] at ascii
    omega
  unfold String.utf8EncodeChar at member ⊢
  change _ ∧ c.val.toNat = b.toNat
  generalize c.val.toNat = v at member ⊢
  dsimp only at member ⊢
  split at member
  · rw [List.mem_singleton.mp member, if_pos ‹_›, toNat_ofNat (by omega)]
    exact ⟨rfl, rfl⟩
  split at member
  · simp only [List.mem_cons, List.not_mem_nil, or_false] at member
    rcases member with same | same
    · exact (lead (by omega) (by omega) same).elim
    · exact (high (by omega) same).elim
  split at member
  · simp only [List.mem_cons, List.not_mem_nil, or_false] at member
    rcases member with same | same | same
    · exact (lead (by omega) (by omega) same).elim
    · exact (high (by omega) same).elim
    · exact (high (by omega) same).elim
  · simp only [List.mem_cons, List.not_mem_nil, or_false] at member
    rcases member with same | same | same | same
    · exact (lead (by omega) (by omega) same).elim
    · exact (high (by omega) same).elim
    · exact (high (by omega) same).elim
    · exact (high (by omega) same).elim

theorem encodeChars_append (cs ds : List Char) :
    encodeChars (cs ++ ds) = encodeChars cs ++ encodeChars ds := List.flatMap_append

theorem encodeChars_cons (c : Char) (cs : List Char) :
    encodeChars (c :: cs) = String.utf8EncodeChar c ++ encodeChars cs := List.flatMap_cons

/-! ## Characters of ASCII -/

theorem toNat_toUInt8 {c : Char} (ascii : c.toNat < 128) : c.toUInt8.toNat = c.toNat := by
  change c.toNat % 256 = c.toNat
  omega

theorem ofNat_toUInt8 {c : Char} (ascii : c.toNat < 128) : Char.ofNat c.toUInt8.toNat = c := by
  rw [toNat_toUInt8 ascii, Char.ofNat_toNat]

theorem encodeChar_ascii {c : Char} (ascii : c.toNat < 128) :
    String.utf8EncodeChar c = [c.toUInt8] := by
  have small : c.val.toNat ≤ 0x7f := Nat.le_of_lt_succ ascii
  rw [String.utf8EncodeChar]
  simp only [small, if_true]
  rfl

theorem encodeChars_ascii {cs : List Char} (ascii : ∀ c ∈ cs, c.toNat < 128) :
    encodeChars cs = cs.map Char.toUInt8 := by
  induction cs with
  | nil => rfl
  | cons c cs ih =>
    rw [encodeChars_cons, encodeChar_ascii (ascii c List.mem_cons_self),
      ih fun x member => ascii x (List.mem_cons_of_mem _ member)]
    rfl

/-- The byte of a character of ASCII occurs where that character does, and nowhere else. -/
theorem toUInt8_mem_encodeChars {a : Char} (ascii : a.toNat < 128) {cs : List Char} :
    a.toUInt8 ∈ encodeChars cs ↔ a ∈ cs := by
  have own : a.toUInt8.toNat = a.toNat := toNat_toUInt8 ascii
  constructor
  · intro member
    obtain ⟨c, inside, part⟩ := List.mem_flatMap.mp member
    have same := (encodeChar_of_mem part (by omega)).2
    exact Char.toNat_inj.mp (same.trans own) ▸ inside
  · intro member
    exact List.mem_flatMap.mpr ⟨a, member, by simp [encodeChar_ascii ascii]⟩

/-- A text ends with the byte of a character of ASCII just when it ends with that character. -/
theorem getLast?_encodeChars {a : Char} (ascii : a.toNat < 128) {cs : List Char} :
    (encodeChars cs).getLast? = some a.toUInt8 ↔ cs.getLast? = some a := by
  rcases List.eq_nil_or_concat cs with rfl | ⟨front, c, rfl⟩
  · simp [encodeChars]
  have whole : encodeChars (front.concat c) = encodeChars front ++ String.utf8EncodeChar c := by
    rw [List.concat_eq_append, encodeChars_append, encodeChars_cons]
    exact congrArg (encodeChars front ++ ·) (List.append_nil _)
  obtain ⟨b, own⟩ := Option.isSome_iff_exists.mp
    (List.getLast?_isSome.mpr (String.utf8EncodeChar_ne_nil (c := c)))
  rw [whole, List.getLast?_append, own, List.concat_eq_append, List.getLast?_concat, Option.some_or,
    Option.some.injEq, Option.some.injEq]
  constructor
  · rintro rfl
    have member := List.mem_of_getLast? own
    exact Char.toNat_inj.mp ((encodeChar_of_mem member (by rw [toNat_toUInt8 ascii]; omega)).2.trans
      (toNat_toUInt8 ascii))
  · rintro rfl
    simpa [encodeChar_ascii ascii] using own.symm

/-! ## Reading back -/

/-- The encoding of characters is read as those characters. -/
theorem scalars_encodeChars (cs : List Char) (rest : List UInt8) :
    scalars none (encodeChars cs ++ rest) = cs.map some ++ scalars none rest := by
  induction cs with
  | nil => rfl
  | cons c cs ih =>
    rw [encodeChars, List.flatMap_cons, List.append_assoc, scalars_encodeChar]
    exact congrArg (some c :: ·) ih

theorem mapM_id_map_some (cs : List Char) : (cs.map some).mapM id = some cs := by
  induction cs with
  | nil => rfl
  | cons c cs ih => simp [ih]

/-- The bytes of a text are read as that text. -/
theorem decode?_encodeChars (cs : List Char) :
    decode? (encodeChars cs) = some (String.ofList cs) := by
  have read := scalars_encodeChars cs []
  rw [List.append_nil, scalars, List.append_nil] at read
  rw [decode?, read, mapM_id_map_some, Option.map_some]

/-- Decoding gives back the text that was encoded. -/
theorem decode?_encode (s : String) : decode? (encode s) = some s := by
  rw [encode, decode?_encodeChars, String.ofList_toList]

end Stencil.Utf8
