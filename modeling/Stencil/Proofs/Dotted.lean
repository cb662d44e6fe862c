import Stencil.Path
import Stencil.Proofs.Decimal.Integer

/-! # Paths written with periods

A path that was read from a dotted text has one spelling of its own: the names of its segments with
periods between them, without the empty components of the text and the zeros before an index. It is
read as the same path.
-/

namespace Stencil

namespace Segment

/-- The name of a segment that was read is read as that segment. -/
theorem parse_name (text : String) :
    Segment.parse (Segment.parse text).name = Segment.parse text := by
  cases found : (Decimal.natural? text.toList).filter (· ≤ Decimal.greatestIndex) with
  | none =>
    have key : Segment.parse text = .key text := by rw [Segment.parse, found]
    rw [key]
    exact key
  | some place =>
    have index : Segment.parse text = .index place := by rw [Segment.parse, found]
    have small := (Option.filter_eq_some_iff.mp found).2
    have digits : Decimal.natural? (toString place).toList = some place := by
      rw [← Decimal.natural?_digits place]
      exact congrArg Decimal.natural? Nat.toList_repr
    rw [index, Segment.name, Segment.parse, digits, Option.filter_some, if_pos small]

/-- The name of a segment that was read is digits, or the text it was read from. -/
theorem name_parse (text : String) :
    (∃ place, (Segment.parse text).name.toList = Decimal.digits place) ∨
      (Segment.parse text).name = text := by
  unfold Segment.parse
  split
  · rename_i place _
    exact .inl ⟨place, Nat.toList_repr⟩
  · exact .inr rfl

/-- The name of a segment has characters of its text, and digits. -/
theorem mem_name {text : String} {c : Char} (member : c ∈ (Segment.parse text).name.toList) :
    c.isDigit = true ∨ c ∈ text.toList := by
  rcases name_parse text with ⟨place, digits⟩ | same
  · rw [digits] at member
    exact .inl (Decimal.isDigit_of_mem_digits member)
  · rw [same] at member
    exact .inr member

theorem name_ne_nil {text : String} (some : text.toList ≠ []) :
    (Segment.parse text).name.toList ≠ [] := by
  rcases name_parse text with ⟨place, digits⟩ | same
  · rw [digits]
    exact Decimal.digits_ne_nil place
  · rwa [same]

end Segment

namespace Path

/-- Cutting a text at a separator is the split of the library. -/
theorem pieces_eq_splitOn (separator : Char) (cs : List Char) :
    pieces separator cs = cs.splitOn separator := by
  induction cs with
  | nil => rfl
  | cons c rest ih =>
    rw [pieces, ih, List.splitOn_cons_eq_if_modifyHead]
    by_cases same : c = separator
    · rw [if_pos same, if_pos (beq_iff_eq.mpr same)]
    · obtain ⟨first, others, split⟩ :=
        List.exists_cons_of_ne_nil (List.splitOn_ne_nil separator rest)
      rw [if_neg same, if_neg (fun equal => same (beq_iff_eq.mp equal)), split]
      rfl

/-- A piece of a text is made of its characters, without the separator. -/
theorem mem_pieces {separator : Char} {cs part : List Char} (member : part ∈ pieces separator cs) :
    ∀ c ∈ part, c ≠ separator ∧ c ∈ cs := by
  induction cs generalizing part with
  | nil => simp_all [pieces]
  | cons c rest ih =>
    have later : ∀ part ∈ pieces separator rest, ∀ d ∈ part, d ≠ separator ∧ d ∈ c :: rest :=
      fun part inside d own => ⟨(ih inside d own).1, List.mem_cons_of_mem _ (ih inside d own).2⟩
    rw [pieces] at member
    split at member
    · rcases List.mem_cons.mp member with rfl | inside
      · exact nofun
      · exact later part inside
    · rename_i other
      have own : c ≠ separator ∧ c ∈ c :: rest := ⟨other, List.mem_cons_self⟩
      split at member
      · rw [List.mem_singleton.mp member]
        exact List.forall_mem_singleton.mpr own
      · rename_i first others parts
        rw [parts] at later
        rcases List.mem_cons.mp member with rfl | inside
        · exact List.forall_mem_cons.mpr ⟨own, later first List.mem_cons_self⟩
        · exact later part (List.mem_cons_of_mem _ inside)

/-- A segment of a path that was read is what a component of the text stands for. -/
theorem of_mem_segments {text : String} {segment : Segment}
    (member : segment ∈ (parse text).segments) : ∃ part ∈ pieces '.' text.toList,
      part ≠ [] ∧ Segment.parse (String.ofList part) = segment := by
  obtain ⟨part, kept, same⟩ := List.mem_map.mp member
  obtain ⟨inside, some⟩ := List.mem_filter.mp kept
  exact ⟨part, inside, by simpa using some, same⟩

/-- The names of the segments with periods between them, or a lone period when there are none. -/
def dotted (path : Path) : List Char :=
  match path.segments with
  | [] => ['.']
  | segments => ['.'].intercalate (segments.map (·.name.toList))

/-- The dotted text of a path that was read is read as that path. -/
theorem parse_dotted (text : String) : parse (String.ofList (parse text).dotted) = parse text := by
  have read : ∀ segment ∈ (parse text).segments, segment.name.toList ≠ [] ∧
      '.' ∉ segment.name.toList ∧ Segment.parse segment.name = segment := by
    intro segment member
    obtain ⟨part, inside, some, rfl⟩ := of_mem_segments member
    refine ⟨Segment.name_ne_nil (by simpa using some), fun period => ?_, Segment.parse_name _⟩
    rcases Segment.mem_name period with digit | own
    · exact absurd digit (by decide)
    · rw [String.toList_ofList] at own
      exact (mem_pieces inside _ own).1 rfl
  generalize parse text = path at read
  obtain ⟨segments⟩ := path
  cases segments with
  | nil => rfl
  | cons first others =>
    let names := (first :: others).map (·.name.toList)
    have split : pieces '.' (['.'].intercalate names) = names := by
      rw [pieces_eq_splitOn]
      refine List.splitOn_intercalate '.' ?_ (List.cons_ne_nil _ _)
      exact List.forall_mem_map.mpr fun segment member => (read segment member).2.1
    have kept : names.filter (!·.isEmpty) = names :=
      List.filter_eq_self.mpr (List.forall_mem_map.mpr fun segment member => by
        simpa using (read segment member).1)
    have same : names.map (fun name => Segment.parse (String.ofList name)) = first :: others := by
      rw [List.map_map]
      refine (List.map_congr_left fun segment member => ?_).trans (List.map_id _)
      exact (congrArg Segment.parse String.ofList_toList).trans (read segment member).2.2
    change parse (String.ofList (['.'].intercalate names)) = _
    rw [parse, String.toList_ofList, split, kept, same]

theorem dotted_ne_nil (text : String) : (parse text).dotted ≠ [] := by
  intro none
  have whole := parse_dotted text
  rw [none] at whole
  rw [← whole] at none
  cases none

theorem mem_intercalate {separator c : Char} {parts : List (List Char)}
    (member : c ∈ [separator].intercalate parts) : c = separator ∨ ∃ part ∈ parts, c ∈ part := by
  induction parts with
  | nil => cases member
  | cons part rest ih =>
    by_cases last : rest = []
    · rw [last, List.intercalate_singleton] at member
      exact .inr ⟨part, List.mem_cons_self, member⟩
    · rw [List.intercalate_cons_of_ne_nil last, List.append_assoc, List.mem_append,
        List.singleton_append, List.mem_cons] at member
      rcases member with own | same | later
      · exact .inr ⟨part, List.mem_cons_self, own⟩
      · exact .inl same
      · refine (ih later).imp_right ?_
        rintro ⟨other, inside, own⟩
        exact ⟨other, List.mem_cons_of_mem _ inside, own⟩

/-- The dotted text of a path that was read has no characters but periods, digits and those of the
text it was read from. -/
theorem mem_dotted {text : String} {c : Char} (member : c ∈ (parse text).dotted) :
    c = '.' ∨ c.isDigit = true ∨ c ∈ text.toList := by
  unfold dotted at member
  split at member
  · exact .inl (List.mem_singleton.mp member)
  refine (mem_intercalate member).imp_right ?_
  rintro ⟨_, named, own⟩
  obtain ⟨segment, inside, rfl⟩ := List.mem_map.mp named
  obtain ⟨part, piece, -, rfl⟩ := of_mem_segments inside
  refine (Segment.mem_name own).imp_right fun letter => ?_
  rw [String.toList_ofList] at letter
  exact (mem_pieces piece _ letter).2

end Path

end Stencil
