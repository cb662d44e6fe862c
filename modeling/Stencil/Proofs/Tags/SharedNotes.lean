import Stencil.Proofs.Tags.Dates

/-! # Sharing notes

Whatever a host does with notes that it shares, it cannot tell them from notes that the date tag
never looks at. What one use preserves of the notes is stated once; the answers of a whole history
of uses follow by induction.
-/

namespace Stencil

open Comparison (Related)
open Routine (Ended Similar)

namespace Store.Apart

variable {earlier : Notes}

theorem load (renderer : Renderer) (path : String) :
    Similar (Apart earlier) (Ended Eq) (renderer.load path) (renderer.load path) := by
  have read : Similar (Apart earlier) (Ended Eq) (renderer.loader.load path)
      (renderer.loader.load path) := by
    cases renderer.loader with
    | memory templates => exact .done (Ended.refl (fun _ => rfl) _)
    | files tree => exact fun s t apart => .pause apart fun _ _ => .done (Ended.refl (fun _ => rfl) _)
  have fresh : Similar (Apart earlier) (Ended Eq)
      ((renderer.loader.load path).andThen fun text => renderer.parse ⟨path, text⟩)
      ((renderer.loader.load path).andThen fun text => renderer.parse ⟨path, text⟩) := by
    apply Attempt.andThen_similar read
    rintro text _ rfl
    apply Similar.step
    · exact fun _ _ _ => Ended.refl (fun _ => rfl) _
    · intro s t apart
      exact apart.change (f := fun s => { s with parses := s.parses + 1 }) fun _ _ => rfl
  unfold Renderer.load
  dsimp only
  cases renderer.config.shouldCache with
  | false => exact fresh
  | true =>
    intro s t apart
    have same : t.cached? path = s.cached? path := by
      rw [apart.rest]
      rfl
    refine .readLeft (.readRight ?_)
    rw [same]
    cases s.cached? path with
    | some nodes => exact .done (.ok rfl) apart
    | none =>
      refine Attempt.andThen_similar fresh ?_ s t apart
      rintro nodes _ rfl
      apply Similar.step
      · exact fun _ _ _ => .ok rfl
      · exact fun s t apart => apart.change (f := (·.keep path nodes)) fun _ _ => rfl

/-- Host nodes see the data, which both runs share. -/
theorem hosts (action : HostAction) : (lockStep earlier).Hosts action action :=
  Comparison.hosts_self (fun _ _ => .rfl) action

end Store.Apart

/-! ## Uses -/

/-- Tags that a host registers besides the built-in ones. None of them sees the memo of date
patterns. -/
structure HostTags where
  tags : List (String × Handler)
  blind : ∀ tag ∈ tags, Handler.Blind tag.2

/-- What a host does with notes that it shares: it keeps an entry of its own there, calls the date
tag, renders nodes without a renderer, or renders the template at a path. -/
inductive Job
  | note (key : String) (note : Note) (other : key ≠ Tags.patternsKey)
  | date (call : Call) (data : Value)
  | nodes (host : HostTags) (nodes : List Node) (data : Value)
  | path (host : HostTags) (renderer : Renderer) (path : String) (data : Value)

/-- Does a job; the built-in tags are as given. -/
def Job.attempt (builtin : Registry) : Job → Attempt Value
  | .note key entry _ =>
    Routine.step fun s => (.ok .null, { s with notes := s.notes.insert key entry })
  | .date call data =>
    match builtin.find? "date" with
    | some handler => (handler call).attemptOn data
    | none => .of (.error (.missingTag "date" call.source))
  | .nodes host template data =>
    let scope : Scope := ⟨builtin.registerAll host.tags, .unavailable, 0⟩
    .map .string ((scope.serialize template).attemptOn data)
  | .path host renderer name data =>
    let renderer := { renderer with tags := builtin.registerAll host.tags }
    .map .string ((renderer.renderPath name).attemptOn data)

/-- One use of shared notes: a job over a store that has nothing but the notes in common with other
uses. -/
structure Use where
  job : Job
  store : Store

namespace Use

/-- The answer to a use and the notes after it; the built-in tags are as given. -/
def run (builtin : Registry) (use : Use) (notes : Notes) : Except Error Value × Notes :=
  let (answer, after) := (use.job.attempt builtin).run { use.store with notes }
  (answer, after.notes)

/-- The answers to several uses, one after the other, and the notes after them. -/
def runAll (builtin : Registry) : List Use → Notes → List (Except Error Value) × Notes
  | [], notes => ([], notes)
  | use :: rest, notes =>
    let (answer, after) := use.run builtin notes
    let (answers, last) := runAll builtin rest after
    (answer :: answers, last)

end Use

/-! ## One use -/

/-- A job does the same with dates from notes of their own. -/
theorem Job.attempt_similar (job : Job) {earlier : Notes} :
    Similar (Store.Apart earlier) (Ended Eq) (job.attempt Tags.builtin)
      (job.attempt Tags.freshBuiltin) := by
  cases job with
  | note key note other =>
    apply Similar.step
    · exact fun _ _ _ => .ok rfl
    · exact fun s t apart => apart.withNotes (apart.notes.insert other note)
  | date call data =>
    change Similar _ _ ((Tags.date call).attemptOn data) ((Tags.freshDate call).attemptOn data)
    rw [Evaluation.attemptOn_eq_outcome, Evaluation.attemptOn_eq_outcome]
    exact Attempt.andThen_similar (Store.Apart.date_outcome call data)
      fun _ _ same => .done (.ok same.1)
  | nodes host nodes data =>
    have scopes : (Store.Apart.lockStep earlier).Scopes
        ⟨Tags.builtin.registerAll host.tags, .unavailable, 0⟩
        ⟨Tags.freshBuiltin.registerAll host.tags, .unavailable, 0⟩ :=
      ⟨Store.Apart.registries host.blind, fun _ _ => .throw _⟩
    have rendered := Scope.serialize_related scopes (Node.likeAll_refl Store.Apart.hosts nodes)
    exact Attempt.map_similar (rendered.attemptOn rfl) fun _ _ same => congrArg Value.string same
  | path host renderer path data =>
    have renderers : (Store.Apart.lockStep earlier).Renderers
        { renderer with tags := Tags.builtin.registerAll host.tags }
        { renderer with tags := Tags.freshBuiltin.registerAll host.tags } :=
      ⟨Store.Apart.registries host.blind, fun _ => Store.Apart.load _ _, Store.Apart.hosts⟩
    have rendered := renderers.renderPath path
    exact Attempt.map_similar (rendered.attemptOn rfl) fun _ _ same => congrArg Value.string same

namespace Use

variable {earlier shared own : Notes}

/-- One use gives the same answer, and the notes after it still differ in their memos only. -/
theorem run_fresh (use : Use) (apart : Notes.Apart earlier shared own) :
    (use.run Tags.builtin shared).1 = (use.run Tags.freshBuiltin own).1 ∧
      Notes.Apart earlier (use.run Tags.builtin shared).2 (use.run Tags.freshBuiltin own).2 := by
  have stores : Store.Apart earlier { use.store with notes := shared }
      { use.store with notes := own } := ⟨rfl, apart⟩
  obtain ⟨answers, after⟩ := (use.job.attempt_similar _ _ stores).run
  exact ⟨answers.eq, after.notes⟩

/-- Any uses of shared notes end as they do with fresh ones. -/
theorem runAll_fresh (uses : List Use) (apart : Notes.Apart earlier shared own) :
    (runAll Tags.builtin uses shared).1 = (runAll Tags.freshBuiltin uses own).1 ∧
      Notes.Apart earlier (runAll Tags.builtin uses shared).2
        (runAll Tags.freshBuiltin uses own).2 := by
  induction uses generalizing shared own with
  | nil => exact ⟨rfl, apart⟩
  | cons use rest ih =>
    obtain ⟨answer, after⟩ := use.run_fresh apart
    obtain ⟨answers, last⟩ := ih after
    exact ⟨congrArg₂ List.cons answer answers, last⟩

theorem runAll_append (builtin : Registry) (uses later : List Use) (notes : Notes) :
    (runAll builtin (uses ++ later) notes).2 =
      (runAll builtin later (runAll builtin uses notes).2).2 := by
  induction uses generalizing notes with
  | nil => rfl
  | cons use rest ih => exact ih _

/-! ## Transparency -/

/-- After several uses the notes have a memo of date patterns that cannot be told from none. -/
structure Transparent (uses : List Use) (notes : Notes) : Prop where
  /-- Every use is answered as when each date call runs on notes of its own. -/
  answers : (runAll Tags.builtin uses notes).1 = (runAll Tags.freshBuiltin uses notes).1
  /-- A pattern is kept as the parse of its text. -/
  parsed : ∀ text pattern, (runAll Tags.builtin uses notes).2.pattern? text = some pattern →
    Calendar.Pattern.parse? text = some pattern
  /-- Nothing is kept for what is no pattern. -/
  failed : ∀ text, Calendar.Pattern.parse? text = none →
    (runAll Tags.builtin uses notes).2.pattern? text = none
  /-- What is kept stays as it is, whatever comes later. -/
  stays : ∀ later text pattern, (runAll Tags.builtin uses notes).2.pattern? text = some pattern →
    (runAll Tags.builtin (uses ++ later) notes).2.pattern? text = some pattern

/-- The memo of shared notes makes no difference, whatever a host does with them. -/
theorem memo_transparent (uses : List Use) {notes : Notes} (faithful : notes.Faithful) :
    Transparent uses notes := by
  obtain ⟨answers, after⟩ := runAll_fresh uses (.refl faithful)
  refine ⟨answers, fun text pattern => after.faithful.parsed, ?_, ?_⟩
  · intro text fails
    cases kept : (runAll Tags.builtin uses notes).2.pattern? text with
    | none => rfl
    | some pattern => exact absurd (after.faithful.parsed kept) (by rw [fails]; nofun)
  · intro later text pattern kept
    rw [runAll_append]
    exact (runAll_fresh later (.refl after.faithful)).2.kept kept

/-- How often a template has been visited, counted among the notes. -/
private def visit : Handler := fun _ => Evaluation.store fun s =>
  let visits := ((s.notes.find? "visits").bind Note.number?).getD 0 + 1
  (.int visits, { s with notes := s.notes.insert "visits" (.number visits) })

private theorem visit_blind : Handler.Blind visit := by
  intro earlier a b _
  apply Related.ofAttempt
  refine Similar.bind (V := Eq) (Similar.step ?_ ?_) ?_
  · intro s t apart
    rw [apart.notes.others (by decide)]
  · intro s t apart
    rw [apart.notes.others (by decide)]
    exact apart.withNotes (apart.notes.insert (by decide) _)
  · rintro value _ rfl
    exact .done (.ok rfl)

/-- Dates in a template that is visited, between calls of the date tag by the host. -/
private def visits : List Use :=
  let stamp (pattern : String) : Call :=
    ⟨"date", [.int 86400, .string pattern], none, .detached "host", [], false, 0⟩
  let page := "#visit() #for(\"t\", times) \x7b#date(t, \"[year]\")#date(t, \"[nonsense]\")\x7d"
  let data := Value.map [("times", .array [.int 0, .int 86400])]
  [⟨.date (stamp "[year]") .null, .empty⟩, ⟨.date (stamp "[nonsense]") .null, .empty⟩,
    ⟨.path ⟨[("visit", visit)], by simpa using visit_blind⟩
      (.kit (.memory [("page.kit", page.toUTF8.toList)])) "page" data, .empty⟩]

/-- Shared notes serve two calls of the date tag and a page that is visited as fresh ones do. -/
theorem memo_transparent_visits : Notes.Faithful .empty ∧ Transparent visits .empty :=
  ⟨Notes.faithful_empty, memo_transparent visits Notes.faithful_empty⟩

end Use

end Stencil
