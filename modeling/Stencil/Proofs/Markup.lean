import Mathlib.Data.List.TakeWhile
import Stencil.Markup

/-! # Escaped text is inert

In an escaped text nothing can open or close markup: of the five characters that mean something
there only the ampersand occurs, and only where it starts an entity. Inert texts stay so when they
are put together.
-/

namespace Stencil.Markup

def entities : List String := ["&amp;", "&lt;", "&gt;", "&quot;", "&#39;"]

/-- The characters that never occur in escaped text. -/
def active : List Char := ['<', '>', '"', '\'']

/-- No character is active, and every ampersand starts an entity. -/
structure Inert (cs : List Char) : Prop where
  passive : ∀ c ∈ cs, c ∉ active
  entity : ∀ before after, cs = before ++ '&' :: after →
    ∃ entity ∈ entities, entity.toList <+: '&' :: after

namespace Inert

theorem nil : Inert [] := ⟨nofun, fun before after none => by simp at none⟩

theorem append {cs ds : List Char} (first : Inert cs) (second : Inert ds) : Inert (cs ++ ds) where
  passive := List.forall_mem_append.mpr ⟨first.passive, second.passive⟩
  entity before after split := by
    rcases List.append_eq_append_iff.mp split with ⟨more, rfl, rfl⟩ | ⟨more, rfl, rest⟩
    · exact second.entity more after rfl
    · cases more with
      | nil => exact second.entity [] after rest.symm
      | cons c more =>
        obtain ⟨rfl, rfl⟩ := List.cons.inj rest
        obtain ⟨entity, member, starts⟩ := first.entity before more rfl
        exact ⟨entity, member, starts.trans (List.prefix_append ('&' :: more) ds)⟩

/-- A character that is written as it is. -/
theorem single {c : Char} (passive : c ∉ active) (plain : c ≠ '&') : Inert [c] where
  passive := List.forall_mem_singleton.mpr passive
  entity before after split := by
    have member : '&' ∈ [c] := split ▸ List.mem_append_right before List.mem_cons_self
    exact absurd (List.mem_singleton.mp member).symm plain

/-- An entity has no other ampersand than its first character. -/
theorem of_entity {entity : String} {rest : List Char} (known : entity ∈ entities)
    (spelled : entity.toList = '&' :: rest) (passive : ∀ c ∈ entity.toList, c ∉ active)
    (once : '&' ∉ rest) : Inert entity.toList where
  passive := passive
  entity before after split := by
    rw [spelled] at split
    cases before with
    | nil =>
      refine ⟨entity, known, ?_⟩
      rw [spelled, split]
      exact List.prefix_rfl
    | cons c before =>
      obtain ⟨_, rfl⟩ := List.cons.inj split
      exact absurd (List.mem_append_right before List.mem_cons_self) once

end Inert

theorem inert_entity {entity : String} (known : entity ∈ entities) : Inert entity.toList := by
  unfold entities at known
  simp only [List.mem_cons, List.not_mem_nil, or_false] at known
  obtain rfl | rfl | rfl | rfl | rfl := known <;>
    exact .of_entity (by decide) rfl (by simp [active]) (by decide)

theorem mem_entities {c : Char} {entity : String} (escaped : entity? c = some entity) :
    entity ∈ entities := by
  unfold entity? at escaped
  unfold entities
  grind

theorem inert_of_plain {c : Char} (plain : entity? c = none) : Inert [c] := by
  apply Inert.single
  · intro member
    unfold active at member
    unfold entity? at plain
    grind
  · rintro rfl
    cases plain

/-- What is written for a character holds no markup, and no open entity. -/
theorem inert_escapeChar (c : Char) : Inert (escapeChar c) := by
  unfold escapeChar
  cases escaped : entity? c with
  | some entity => exact inert_entity (mem_entities escaped)
  | none => exact inert_of_plain escaped

theorem inert_escapeChars (cs : List Char) : Inert (escapeChars cs) := by
  induction cs with
  | nil => exact .nil
  | cons c cs ih => exact (inert_escapeChar c).append ih

/-- Characters are escaped one by one. -/
theorem escapeChars_append (cs ds : List Char) :
    escapeChars (cs ++ ds) = escapeChars cs ++ escapeChars ds := List.flatMap_append

/-- Text without characters of markup is left as it is. -/
theorem escapeChars_of_plain {cs : List Char} (plain : ∀ c ∈ cs, isPlain c) :
    escapeChars cs = cs := by
  induction cs with
  | nil => rfl
  | cons c cs ih =>
    obtain ⟨first, others⟩ := List.forall_mem_cons.mp plain
    have kept : escapeChar c = [c] := by
      rw [escapeChar, Option.isNone_iff_eq_none.mp first]
    change escapeChar c ++ escapeChars cs = _
    rw [kept, ih others]
    rfl

/-- Leaving what comes before the first character to be escaped as it is changes nothing. -/
theorem escape_eq (s : String) : escape s = String.ofList (escapeChars s.toList) := by
  have plain : escapeChars (s.toList.takeWhile isPlain) = s.toList.takeWhile isPlain :=
    escapeChars_of_plain fun c member => List.mem_takeWhile_imp member
  have whole : s.toList.takeWhile isPlain ++ s.toList.dropWhile isPlain = s.toList :=
    List.takeWhile_append_dropWhile
  unfold escape escaped?
  cases rest : s.toList.dropWhile isPlain with
  | nil =>
    rw [rest, List.append_nil] at whole
    rw [← whole, plain, whole]
    exact String.ofList_toList.symm
  | cons c cs =>
    rw [rest] at whole
    have split : escapeChars s.toList =
        escapeChars (s.toList.takeWhile isPlain) ++ escapeChars (c :: cs) := by
      rw [← escapeChars_append, whole]
    rw [split, plain]
    rfl

/-- An escaped text is inert. -/
theorem inert_escape (s : String) : Inert (escape s).toList := by
  rw [escape_eq, String.toList_ofList]
  exact inert_escapeChars s.toList

end Stencil.Markup
