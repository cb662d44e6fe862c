import Stencil.Tags.Builtin

/-! # The memo of date patterns

The notes of a render may keep parsed date patterns. Notes are faithful when what they keep is what
parsing gives; then it makes no difference whether a pattern is looked up or parsed, and the notes
stay faithful. What they keep they never lose.
-/

namespace Stencil

/-- Every date pattern among the notes is the parse of its text. -/
def Notes.Faithful (notes : Notes) : Prop :=
  ∀ memo, (notes.find? Tags.patternsKey).bind Note.patterns? = some memo →
    ∀ text pattern, memo.lookup text = some pattern → Calendar.Pattern.parse? text = some pattern

theorem Notes.faithful_empty : Notes.empty.Faithful := nofun

theorem Notes.faithful_insert_patterns {notes : Notes} {memo : List (String × Calendar.Pattern)}
    (sound : ∀ text pattern, memo.lookup text = some pattern →
      Calendar.Pattern.parse? text = some pattern) :
    (notes.insert Tags.patternsKey (.patterns memo)).Faithful := by
  intro found there
  rw [find?_insert_self] at there
  cases there
  exact sound

namespace Tags

/-- The memo of faithful notes is one of parses, and reading it leaves the notes faithful. -/
theorem memo_spec {s : Store} (faithful : s.notes.Faithful) :
    ∃ known notes, memo s = (known, { s with notes }) ∧ notes.Faithful ∧
      ∀ text pattern, known.lookup text = some pattern →
        Calendar.Pattern.parse? text = some pattern := by
  unfold memo Notes.findOrInsert
  cases found : (s.notes.find? patternsKey).bind Note.patterns? with
  | some known => exact ⟨known, s.notes, rfl, faithful, faithful known found⟩
  | none => exact ⟨[], _, rfl, Notes.faithful_insert_patterns nofun, nofun⟩

/-- With faithful notes a pattern is what parsing gives, and the notes stay faithful. -/
theorem patternOf_spec (text : String) {s : Store} (faithful : s.notes.Faithful) :
    ∃ notes, patternOf text s = (Calendar.Pattern.parse? text, { s with notes }) ∧
      notes.Faithful := by
  obtain ⟨known, notes, read, kept, sound⟩ := memo_spec faithful
  unfold patternOf
  rw [read]
  dsimp only
  cases found : known.lookup text with
  | some pattern =>
    rw [sound text pattern found]
    exact ⟨notes, rfl, kept⟩
  | none =>
    cases parsed : Calendar.Pattern.parse? text with
    | none => exact ⟨notes, rfl, kept⟩
    | some pattern =>
      refine ⟨_, rfl, Notes.faithful_insert_patterns ?_⟩
      intro other pattern' there
      rw [List.lookup_cons] at there
      split at there
      · rename_i same
        cases there
        rw [eq_of_beq same, parsed]
      · exact sound other pattern' there

/-! ## Reading patterns again -/

theorem memo_fst (s : Store) :
    (memo s).1 = ((s.notes.find? patternsKey).bind Note.patterns?).getD [] := by
  unfold memo Notes.findOrInsert
  cases (s.notes.find? patternsKey).bind Note.patterns? <;> rfl

theorem memo_snd (s : Store) : (memo (memo s).2).1 = (memo s).1 := by
  rw [memo_fst (memo s).2]
  unfold memo Notes.findOrInsert
  cases found : (s.notes.find? patternsKey).bind Note.patterns? with
  | some known =>
    dsimp only
    rw [found]
    rfl
  | none =>
    dsimp only
    rw [Notes.find?_insert_self]
    rfl

/-- A pattern is the memo's, or else its own parse. -/
theorem patternOf_fst (text : String) (s : Store) :
    (patternOf text s).1 = ((memo s).1.lookup text).or (Calendar.Pattern.parse? text) := by
  unfold patternOf
  dsimp only
  cases (memo s).1.lookup text with
  | some _ => rfl
  | none => cases Calendar.Pattern.parse? text <;> rfl

/-- What a pattern is depends on the notes only. -/
theorem patternOf_congr {s t : Store} (same : t.notes = s.notes) (text : String) :
    (patternOf text t).1 = (patternOf text s).1 := by
  rw [patternOf_fst, patternOf_fst, memo_fst, memo_fst, same]

theorem patternOf_cache (text : String) (s : Store) : (patternOf text s).2.cache = s.cache := by
  unfold patternOf
  dsimp only
  cases (memo s).1.lookup text with
  | some _ => rfl
  | none => cases Calendar.Pattern.parse? text <;> rfl

/-- Reading one pattern leaves every other as it was. -/
theorem patternOf_patternOf (other text : String) (s : Store) :
    (patternOf other (patternOf text s).2).1 = (patternOf other s).1 := by
  have again := memo_snd s
  rw [patternOf_fst, patternOf_fst]
  unfold patternOf
  dsimp only
  cases found : (memo s).1.lookup text with
  | some _ => rw [again]
  | none =>
    cases parsed : Calendar.Pattern.parse? text with
    | none => rw [again]
    | some pattern =>
      dsimp only
      rw [memo_fst, Notes.find?_insert_self]
      change (((text, pattern) :: (memo s).1).lookup other).or _ = _
      by_cases same : other = text
      · subst same
        rw [List.lookup_cons_self, found, parsed]
        rfl
      · rw [lookup_cons_ne same]

end Tags

/-! ## What the notes learn -/

/-- The date pattern that the notes keep for a text. -/
def Notes.pattern? (notes : Notes) (text : String) : Option Calendar.Pattern :=
  ((notes.find? Tags.patternsKey).bind Note.patterns?).bind (·.lookup text)

/-- Faithful notes keep the parse of each text. -/
theorem Notes.Faithful.parsed {notes : Notes} (faithful : notes.Faithful) {text : String}
    {pattern : Calendar.Pattern} (kept : notes.pattern? text = some pattern) :
    Calendar.Pattern.parse? text = some pattern := by
  obtain ⟨memo, there, found⟩ := Option.bind_eq_some_iff.mp kept
  exact faithful memo there text pattern found

theorem Notes.pattern?_insert_patterns (notes : Notes) (memo : List (String × Calendar.Pattern))
    (text : String) :
    (notes.insert Tags.patternsKey (.patterns memo)).pattern? text = memo.lookup text := by
  rw [pattern?, find?_insert_self]
  rfl

theorem Notes.pattern?_insert {notes : Notes} {key : String} (other : key ≠ Tags.patternsKey)
    (note : Note) (text : String) : (notes.insert key note).pattern? text = notes.pattern? text := by
  rw [pattern?, pattern?, find?_insert_ne notes other.symm]

/-- A note under another key leaves the notes faithful. -/
theorem Notes.Faithful.insert {notes : Notes} (faithful : notes.Faithful) {key : String}
    (other : key ≠ Tags.patternsKey) (note : Note) : (notes.insert key note).Faithful := by
  rw [Faithful, find?_insert_ne notes other.symm]
  exact faithful

/-- The later notes still have every date pattern of the earlier ones, and the same entries under
all other keys. -/
structure Notes.Learns (earlier later : Notes) : Prop where
  kept {text : String} {pattern : Calendar.Pattern} (known : earlier.pattern? text = some pattern) :
    later.pattern? text = some pattern
  others {key : String} (other : key ≠ Tags.patternsKey) : later.find? key = earlier.find? key

namespace Notes.Learns

theorem refl (notes : Notes) : notes.Learns notes := ⟨id, fun _ => rfl⟩

theorem trans {first second third : Notes} (earlier : first.Learns second)
    (later : second.Learns third) : first.Learns third :=
  ⟨fun known => later.kept (earlier.kept known),
    fun other => (later.others other).trans (earlier.others other)⟩

/-- A memo with all the patterns of the notes can be put among them. -/
theorem insert_patterns {notes : Notes} {memo : List (String × Calendar.Pattern)}
    (kept : ∀ text pattern, notes.pattern? text = some pattern → memo.lookup text = some pattern) :
    notes.Learns (notes.insert Tags.patternsKey (.patterns memo)) where
  kept known := by
    rw [pattern?_insert_patterns]
    exact kept _ _ known
  others other := find?_insert_ne notes other _

end Notes.Learns

namespace Tags

theorem lookup_memo (s : Store) (text : String) :
    (memo s).1.lookup text = s.notes.pattern? text := by
  rw [memo_fst, Notes.pattern?]
  cases (s.notes.find? patternsKey).bind Note.patterns? <;> rfl

/-- To read the memo forgets no pattern. -/
theorem memo_learns (s : Store) : s.notes.Learns (memo s).2.notes := by
  unfold memo Notes.findOrInsert
  cases found : (s.notes.find? patternsKey).bind Note.patterns? with
  | some known => exact .refl _
  | none =>
    apply Notes.Learns.insert_patterns
    intro text pattern known
    rw [Notes.pattern?, found] at known
    cases known

/-- Reading a pattern keeps every pattern that is there. -/
theorem patternOf_learns (text : String) (s : Store) :
    s.notes.Learns (patternOf text s).2.notes := by
  have read := memo_learns s
  unfold patternOf
  dsimp only
  cases found : (memo s).1.lookup text with
  | some pattern => exact read
  | none =>
    cases parsed : Calendar.Pattern.parse? text with
    | none => exact read
    | some pattern =>
      apply read.trans
      apply Notes.Learns.insert_patterns
      intro other pattern' known
      rw [← lookup_memo, memo_snd] at known
      by_cases same : other = text
      · rw [same, found] at known
        cases known
      · rw [lookup_cons_ne same]
        exact known

end Tags

end Stencil
