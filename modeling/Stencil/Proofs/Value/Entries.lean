import Stencil.Proofs.Dotted
import Stencil.Value.Access

/-! # Entries of a map by their dotted text

A text without a period is one component, and it leads to the entry of that name whatever the text
looks like: an index is turned back into the digits that it was read from. The one exception are
digits with zeros before them. They are read as the index without the zeros, and lead to the entry
of that name.
-/

namespace Stencil

namespace Segment

/-- The text is an index behind one or more zeros. -/
def Padded (text : String) (place : Nat) : Prop :=
  place ≤ Decimal.greatestIndex ∧
    ∃ zeros, text.toList = List.replicate (zeros + 1) '0' ++ Decimal.digits place

variable {text : String} {place : Nat}

theorem Padded.parse (padded : Padded text place) : Segment.parse text = .index place := by
  obtain ⟨small, zeros, written⟩ := padded
  rw [Segment.parse, written, Decimal.natural?_zeros, Option.filter_some,
    if_pos (by simpa using small)]

/-- What is not padded keeps its spelling as a segment, as a key or as an index. -/
theorem name_of_not_padded (plain : ∀ place, ¬ Padded text place) :
    (Segment.parse text).name = text := by
  unfold Segment.parse
  split
  · rename_i place read
    obtain ⟨number, small⟩ := Option.filter_eq_some_iff.mp read
    obtain ⟨zeros, written⟩ := Decimal.exists_zeros number
    cases zeros with
    | zero =>
      apply String.toList_injective
      rw [written, name]
      exact Nat.toList_repr
    | succ zeros => exact absurd ⟨by simpa using small, zeros, written⟩ (plain place)
  · rfl

end Segment

/-- A text without a period is a path of one segment. -/
theorem Path.parse_component {text : String} (some : text ≠ "") (whole : '.' ∉ text.toList) :
    Path.parse text = ⟨[Segment.parse text]⟩ := by
  have one : pieces '.' text.toList = [text.toList] := by
    rw [pieces_eq_splitOn]
    exact List.splitOn_eq_singleton whole
  have kept : [text.toList].filter (!·.isEmpty) = [text.toList] :=
    List.filter_eq_self.mpr (List.forall_mem_singleton.mpr (by simpa using some))
  rw [Path.parse, one, kept, List.map_singleton, String.ofList_toList]

namespace Value

variable {entries : List (String × Value)} {key : String}

/-- A name without a period reads the entry under it. -/
theorem lookup_component (some : key ≠ "") (whole : '.' ∉ key.toList) :
    (map entries).lookup (Path.parse key) = entries.lookup (Segment.parse key).name := by
  rw [Path.parse_component some whole]
  change (entries.lookup (Segment.parse key).name).bind Option.some = _
  rw [Option.bind_fun_some]

/-- A key that is not padded leads to its own entry, if there is one; a padded index leads to the
entry under the index. -/
theorem lookup_entry (entries : List (String × Value)) {key : String} (some : key ≠ "")
    (whole : '.' ∉ key.toList) :
    ((∀ place, ¬ Segment.Padded key place) →
      (map entries).lookup (Path.parse key) = entries.lookup key) ∧
    ∀ place, Segment.Padded key place →
      (map entries).lookup (Path.parse key) = entries.lookup (toString place) := by
  rw [lookup_component some whole]
  constructor
  · intro plain
    rw [Segment.name_of_not_padded plain]
  · intro place padded
    rw [padded.parse]
    rfl

/-- Entries under a number, under digits with zeros before them, and under a number too large for an
index. -/
private def codes : List (String × Value) :=
  [("404", .string "missing"), ("007", .string "agent"), ("18446744073709551616", .null)]

/-- A number leads to its entry, and so do digits that are no index; an index behind zeros leads to
where the index does. -/
theorem lookup_entry_codes :
    (map codes).lookup (Path.parse "404") = some (.string "missing") ∧
      (map codes).lookup (Path.parse "18446744073709551616") = some .null ∧
      (map codes).lookup (Path.parse "007") = codes.lookup "7" := by
  have plain {text : String} (first : text.toList.head? ≠ some '0') (place : Nat) :
      ¬ Segment.Padded text place := by
    rintro ⟨-, zeros, written⟩
    exact first (by rw [written]; rfl)
  refine ⟨?_, ?_, ?_⟩
  · exact ((lookup_entry codes (by decide) (by decide)).1 (plain (by decide))).trans rfl
  · exact ((lookup_entry codes (by decide) (by decide)).1 (plain (by decide))).trans rfl
  · exact (lookup_entry codes (by decide) (by decide)).2 7 ⟨by decide, 1, by decide⟩

/-- Not every entry of a map is reached by its text: with zeros before an index it is not. -/
theorem not_lookup_entry : ¬ ∀ (entries : List (String × Value)) (key : String), key ≠ "" →
    '.' ∉ key.toList → (map entries).lookup (Path.parse key) = entries.lookup key := by
  intro always
  have own := always codes "007" (by decide) (by decide)
  have padded : Segment.Padded "007" 7 := ⟨by decide, 1, by decide⟩
  rw [lookup_component (by decide) (by decide), padded.parse] at own
  cases own

end Value

end Stencil
