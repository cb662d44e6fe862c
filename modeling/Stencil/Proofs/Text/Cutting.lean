import Stencil.Proofs.Text.Utf8

/-! # Cutting UTF-8

A byte of ASCII is a character of its own and belongs to no longer sequence, so a text is valid just
when its parts before and behind such a byte are. A grammar that cuts a valid text only next to
bytes of ASCII gets valid parts.
-/

namespace Stencil.Utf8

/-- The bytes are those of a text. -/
def Valid (bytes : List UInt8) : Prop := (decode? bytes).isSome

theorem valid_encode (s : String) : Valid (encode s) := by
  rw [Valid, decode?_encode]
  rfl

theorem mapM_id_isSome (cs : List (Option Char)) : (cs.mapM id).isSome ↔ ∀ c ∈ cs, c.isSome := by
  induction cs with
  | nil => simp
  | cons c cs ih => cases c <;> cases rest : cs.mapM id <;> simp_all

/-- Valid bytes are read without an invalid run. -/
theorem valid_iff {bytes : List UInt8} : Valid bytes ↔ ∀ c ∈ scalars none bytes, c.isSome := by
  rw [Valid, decode?, Option.isSome_map, mapM_id_isSome]

/-- The next byte of the sequence is not one of ASCII. -/
def Begun.Wide (s : Begun) : Prop := 0x80 ≤ s.lowest

theorem wide_none : ∀ s ∈ (none : Option Begun), s.Wide := by simp

theorem begun?_wide {lead : UInt8} {s : Begun} (begins : begun? lead = some s) : s.Wide := by
  unfold begun? at begins
  grind [Begun.Wide]

theorem first_ascii {b : UInt8} (ascii : b < 0x80) (rest : List UInt8) :
    scalars.first b rest = some (Char.ofNat b.toNat) :: scalars none rest := by
  rw [scalars.first, if_pos ascii]

/-- A byte of ASCII cuts the reading, whatever has begun before it. -/
theorem scalars_cut {b : UInt8} (ascii : b < 0x80) (left right : List UInt8) (state : Option Begun)
    (wide : ∀ s ∈ state, s.Wide) : scalars state (left ++ b :: right) =
      scalars state left ++ some (Char.ofNat b.toNat) :: scalars none right := by
  -- The sequence that has begun may be any wide one, since a byte in front may begin another.
  induction left generalizing state with
  | nil =>
    cases state with
    | none => simp [scalars, first_ascii ascii]
    | some s =>
      have outside : ¬ (s.lowest ≤ b ∧ b ≤ s.highest) := by
        have := wide s rfl
        grind [Begun.Wide]
      simp [scalars, outside, first_ascii ascii]
  | cons a left ih =>
    have first : scalars.first a (left ++ b :: right) =
        scalars.first a left ++ some (Char.ofNat b.toNat) :: scalars none right := by
      rw [scalars.first, scalars.first, ih none wide_none]
      split
      · rfl
      cases begins : begun? a with
      | none => rfl
      | some s =>
        refine ih (some s) ?_
        rintro _ ⟨⟩
        exact begun?_wide begins
    cases state with
    | none => simpa only [List.cons_append, scalars] using first
    | some s =>
      simp only [List.cons_append, scalars, first, ih none wide_none]
      split
      · split
        · rfl
        · apply ih
          simp only [Option.mem_some_iff, forall_eq']
          exact UInt8.le_refl 0x80
      · rfl

theorem valid_nil : Valid [] := by simp [valid_iff, scalars]

/-- A text is valid just when its parts before and behind a byte of ASCII are. -/
theorem valid_cut {b : UInt8} (ascii : b < 0x80) {left right : List UInt8} :
    Valid (left ++ b :: right) ↔ Valid left ∧ Valid right := by
  simp only [valid_iff, scalars_cut ascii left right none wide_none, List.forall_mem_append,
    List.forall_mem_cons, Option.isSome_some, true_and]

theorem valid_cons {b : UInt8} (ascii : b < 0x80) {rest : List UInt8} :
    Valid (b :: rest) ↔ Valid rest := by
  have cut : Valid ([] ++ b :: rest) ↔ Valid [] ∧ Valid rest := valid_cut ascii
  simpa only [List.nil_append, valid_nil, true_and] using cut

/-- Bytes end here, or go on with one of ASCII. -/
def Cut (rest : List UInt8) : Prop := ∀ b ∈ rest.head?, b < 0x80

theorem cut_nil : Cut [] := nofun

theorem cut_cons {b : UInt8} {rest : List UInt8} : Cut (b :: rest) ↔ b < 0x80 := by simp [Cut]

/-- What is cut off a valid text is valid, and so is what is left. -/
theorem Cut.valid {left right : List UInt8} (cut : Cut right) (valid : Valid (left ++ right)) :
    Valid left ∧ Valid right := by
  cases right with
  | nil => exact ⟨by simpa using valid, valid_nil⟩
  | cons b right =>
    have ascii := cut_cons.mp cut
    rw [valid_cut ascii] at valid
    exact ⟨valid.1, (valid_cons ascii).mpr valid.2⟩

end Stencil.Utf8
