import Stencil.Proofs.Rendering.LockStep
import Stencil.Proofs.Rendering.Renderers
import Stencil.Proofs.Tags.Builtin
import Stencil.Proofs.Tags.Memo

/-! # Dates from shared notes

A host shares notes among date calls and among the templates that it renders. Then each date call
gives what it gives with notes of its own. Every use of the notes is compared, in lock step, with
one in which the date tag starts from no notes at all; what the stores have to keep to for that is
that their memos are faithful, and that nobody but the date tag sees them.
-/

namespace Stencil

open Comparison (Related)
open Routine (Ended Ends Similar)

/-! ## Notes of its own -/

/-- Runs an evaluation on empty notes, and puts the notes back afterwards. -/
def Evaluation.withFreshNotes {α : Type} (e : Evaluation α) : Evaluation α :=
  ExceptT.mk fun data => .read fun s => .write { s with notes := .empty } <|
    (e.runOn data).bind fun result => .read fun t => .write { t with notes := s.notes } <|
      .done result

/-- What ends on empty notes and changes nothing else leaves the store as it was. -/
theorem Evaluation.withFreshNotes_ends {α : Type} {e : Evaluation α} {data : Value} {s : Store}
    {result : Except Error α × Value} {notes : Notes}
    (ends : Ends (e.runOn data) { s with notes := .empty } result { s with notes }) :
    Ends (e.withFreshNotes.runOn data) s result s :=
  .read (.write (ends.bind (.read (.write (.done _ _)))))

namespace Tags

/-- The answer to a date call once its pattern is parsed, or known to be none. -/
private def dated (call : Call) (seconds : Float) : Option Calendar.Pattern → Evaluation Value
  | none => call.reject .dateFormat
  | some pattern =>
    match (Calendar.Instant.ofSeconds? seconds).bind pattern.format? with
    | none => call.reject .dateRange
    | some text => return .string text

private theorem dated_done (call : Call) (seconds : Float) (pattern : Option Calendar.Pattern)
    (data : Value) : ∃ result, (dated call seconds pattern).runOn data = .done (result, data) := by
  cases pattern with
  | none => exact ⟨_, rfl⟩
  | some pattern =>
    dsimp only [dated]
    cases (Calendar.Instant.ofSeconds? seconds).bind pattern.format? with
    | none => exact ⟨_, rfl⟩
    | some text => exact ⟨_, rfl⟩

/-- A date call has one result. With faithful notes it gives it at once and changes the notes only,
which learn. -/
theorem date_ends (call : Call) (data : Value) : ∃ result, ∀ s : Store, s.notes.Faithful →
    ∃ notes, Ends ((date call).runOn data) s (result, data) { s with notes } ∧
      notes.Faithful ∧ s.notes.Learns notes := by
  have rejected (fault : TagFault) : ∃ result, ∀ s : Store, s.notes.Faithful →
      ∃ notes, Ends ((call.reject fault : Evaluation Value).runOn data) s (result, data)
        { s with notes } ∧ notes.Faithful ∧ s.notes.Learns notes :=
    ⟨.error (call.error fault), fun s faithful => ⟨s.notes, .done _ _, faithful, .refl _⟩⟩
  unfold date
  dsimp only
  split
  · cases (call.parameter 0).asFloat with
    | none => exact rejected _
    | some seconds =>
      dsimp only
      cases patternText? (call.parameter 1) with
      | none => exact rejected _
      | some text =>
        dsimp only
        obtain ⟨result, done⟩ := dated_done call seconds (Calendar.Pattern.parse? text) data
        refine ⟨result, fun s faithful => ?_⟩
        obtain ⟨notes, answer, kept⟩ := patternOf_spec text faithful
        have learns := patternOf_learns text s
        rw [answer] at learns
        refine ⟨notes, .read (.write ?_), kept, learns⟩
        rw [answer]
        change Ends ((dated call seconds _).runOn data) _ _ _
        rw [done]
        exact .done _ _
  · exact rejected _

/-- A date call is known by its name, its source and its parameters. -/
theorem date_congr {a b : Call} (name : a.name = b.name) (source : a.source = b.source)
    (parameters : a.parameters = b.parameters) : date a = date b := by
  unfold date Call.reject Call.error Call.parameter
  rw [name, source, parameters]

/-- The date tag on notes of its own. -/
def freshDate : Handler := fun call => (date call).withFreshNotes

end Tags

/-! ## Two memos -/

/-- Notes that differ at most in their memo of date patterns, both of which are faithful. The first
have every pattern of some earlier notes. -/
structure Notes.Apart (earlier shared own : Notes) : Prop where
  others {key : String} (other : key ≠ Tags.patternsKey) : own.find? key = shared.find? key
  faithful : shared.Faithful
  faithful' : own.Faithful
  kept {text : String} {pattern : Calendar.Pattern} (known : earlier.pattern? text = some pattern) :
    shared.pattern? text = some pattern

namespace Notes.Apart

variable {earlier shared own : Notes}

/-- Notes agree with themselves. -/
theorem refl {notes : Notes} (faithful : notes.Faithful) : Apart notes notes notes :=
  ⟨fun _ => rfl, faithful, faithful, id⟩

theorem learns (apart : Apart earlier shared own) {later : Notes} (faithful : later.Faithful)
    (learns : shared.Learns later) : Apart earlier later own :=
  ⟨fun other => (apart.others other).trans (learns.others other).symm, faithful, apart.faithful',
    fun known => learns.kept (apart.kept known)⟩

theorem learns' (apart : Apart earlier shared own) {later : Notes} (faithful : later.Faithful)
    (learns : own.Learns later) : Apart earlier shared later :=
  ⟨fun other => (learns.others other).trans (apart.others other), apart.faithful, faithful,
    apart.kept⟩

theorem insert (apart : Apart earlier shared own) {key : String} (other : key ≠ Tags.patternsKey)
    (note : Note) : Apart earlier (shared.insert key note) (own.insert key note) where
  others {name} apart' := by
    by_cases here : name = key
    · rw [here, find?_insert_self, find?_insert_self]
    · rw [find?_insert_ne _ here, find?_insert_ne _ here]
      exact apart.others apart'
  faithful := apart.faithful.insert other note
  faithful' := apart.faithful'.insert other note
  kept known := (pattern?_insert other note _).trans (apart.kept known)

end Notes.Apart

/-- Stores that differ at most in the memo of their notes. -/
structure Store.Apart (earlier : Notes) (s t : Store) : Prop where
  rest : t = { s with notes := t.notes }
  notes : Notes.Apart earlier s.notes t.notes

namespace Store.Apart

variable {earlier : Notes} {s t : Store}

theorem withNotes (apart : Apart earlier s t) {shared own : Notes}
    (notes : Notes.Apart earlier shared own) :
    Apart earlier { s with notes := shared } { t with notes := own } :=
  ⟨by rw [apart.rest], notes⟩

/-- What is done to both stores and not to their notes keeps them so. -/
theorem change (apart : Apart earlier s t) {f : Store → Store}
    (heedless : ∀ (s : Store) notes, f { s with notes } = { f s with notes }) :
    Apart earlier (f s) (f t) := by
  have same (s : Store) : (f s).notes = s.notes := by
    have own := congrArg Store.notes (heedless s s.notes)
    exact own
  constructor
  · rw [same, ← heedless, ← apart.rest]
  · rw [same, same]
    exact apart.notes

theorem finish_notes (s : Store) (notes : Notes) (handle : Handle) (note : Option String) :
    Store.finish { s with notes } handle note = { s.finish handle note with notes } := by
  have same : ({ s with notes } : Store).progressOf handle = s.progressOf handle := rfl
  unfold Store.finish
  dsimp only
  rw [same]
  cases (s.progressOf handle).finished with
  | true => rfl
  | false => cases note <;> rfl

/-- To wait leaves the notes as they are. -/
theorem keptByWaiting : Store.KeptByWaiting (Apart earlier) where
  served apart handle := by
    rw [apart.rest]
    rfl
  serve apart handle := apart.change (f := (·.serve handle)) fun _ _ => rfl
  finish apart handle note :=
    apart.change (f := (·.finish handle note)) fun s notes => finish_notes s notes handle note

/-- Attempts in lock step over stores that differ in their memos. -/
abbrev lockStep (earlier : Notes) : Comparison := .lockStep (@keptByWaiting earlier)

theorem dates : (lockStep earlier).Dates := by
  intro text
  apply Related.ofAttempt
  refine Similar.bind (V := Eq) (Similar.step ?_ ?_) ?_
  · intro s t apart
    obtain ⟨_, answer, _⟩ := Tags.patternOf_spec text apart.notes.faithful
    obtain ⟨_, answer', _⟩ := Tags.patternOf_spec text apart.notes.faithful'
    rw [answer, answer']
  · intro s t apart
    obtain ⟨_, answer, faithful⟩ := Tags.patternOf_spec text apart.notes.faithful
    obtain ⟨_, answer', faithful'⟩ := Tags.patternOf_spec text apart.notes.faithful'
    have learns := Tags.patternOf_learns text s
    have learns' := Tags.patternOf_learns text t
    rw [answer] at learns ⊢
    rw [answer'] at learns' ⊢
    exact apart.withNotes ((apart.notes.learns faithful learns).learns' faithful' learns')
  · rintro pattern _ rfl
    exact .done (.ok rfl)

/-- A date call gives what it gives on notes of its own. -/
theorem date_outcome (call : Call) (data : Value) :
    Similar (Apart earlier) (Ended fun a b => a.1 = b.1 ∧ a.2 = b.2)
      ((Tags.date call).outcome data) ((Tags.freshDate call).outcome data) := by
  intro s t apart
  obtain ⟨result, ends⟩ := Tags.date_ends call data
  obtain ⟨notes, shared, faithful, learns⟩ := ends s apart.notes.faithful
  obtain ⟨_, fresh, _, _⟩ := ends { t with notes := .empty } Notes.faithful_empty
  have own := Evaluation.withFreshNotes_ends fresh
  exact Ends.sim (shared.bind (.done _ _)) (own.bind (.done _ _))
    (.refl (fun _ => ⟨rfl, rfl⟩) _) (apart.withNotes (apart.notes.learns faithful learns))

/-- The date tag gives what it gives with fresh notes. -/
theorem date_related : (lockStep earlier).Handlers Tags.date Tags.freshDate := by
  intro a b same x y data
  obtain rfl : x = y := data
  rw [Tags.date_congr same.name same.source same.parameters]
  exact date_outcome b x

end Store.Apart

/-- A tag that does not see the memo of date patterns: it does the same over stores that differ in
their memos, and keeps them so. -/
def Handler.Blind (handler : Handler) : Prop :=
  ∀ earlier, (Store.Apart.lockStep earlier).Handlers handler handler

/-- The built-in tags, with dates from notes of their own. -/
def Tags.freshBuiltin : Registry := Tags.builtin.register "date" Tags.freshDate

/-- Host tags that are blind to the memo keep the registries related. -/
theorem Store.Apart.registries {earlier : Notes} {host : List (String × Handler)}
    (blind : ∀ tag ∈ host, Handler.Blind tag.2) :
    (lockStep earlier).Registries (Tags.builtin.registerAll host)
      (Tags.freshBuiltin.registerAll host) := by
  have defaults : (lockStep earlier).Registries Tags.builtin Tags.freshBuiltin := by
    intro name
    by_cases here : name = "date"
    · subst here
      exact .some date_related
    · unfold Tags.freshBuiltin Registry.register Registry.erase Registry.find?
      rw [lookup_cons_ne here, lookup_filter_ne here]
      exact Tags.builtin_related dates name
  apply defaults.registerAll
  rw [List.forall₂_same]
  exact fun tag member => ⟨rfl, blind tag member earlier⟩

end Stencil
