import Stencil.Proofs.Value.Resolution

/-! # Reading before or after resolving

A path can be read in data as it is, and what it leads to resolved, or the whole data can be
resolved and the path read in that. As long as the path does not lead on from something deferred the
two agree: where there was nothing there still is nothing, and what was there has been resolved.
-/

namespace Stencil.Value

open Routine (Outcome)

/-- The value itself is deferred, whatever is in it. -/
def isDeferred : Value → Bool
  | pending .. | lazy .. => true
  | _ => false

/-! ## One segment -/

section

variable {R : Value → Value → Prop} {items ws : List Value} {entries fs : List (String × Value)}

theorem rel_getElem? (each : List.Forall₂ R items ws) (place : Nat) :
    Option.Rel R items[place]? ws[place]? := by
  induction each generalizing place with
  | nil => exact .none
  | cons first _ ih =>
    cases place with
    | zero => exact .some first
    | succ place => exact ih place

theorem rel_lookup (each : List.Forall₂ (fun entry f => entry.1 = f.1 ∧ R entry.2 f.2) entries fs)
    (key : String) : Option.Rel R (entries.lookup key) (fs.lookup key) := by
  induction each with
  | nil => exact .none
  | @cons entry f _ _ first _ ih =>
    obtain ⟨name, item⟩ := entry
    obtain ⟨name', w⟩ := f
    obtain ⟨rfl, related⟩ := first
    rw [List.lookup_cons, List.lookup_cons]
    cases key == name with
    | true => exact .some related
    | false => exact ih

end

variable {v w : Value}

/-- One segment leads nowhere before and after resolving, or to a value and what it resolves to. -/
theorem Resolves.child? (resolves : v.Resolves w) (plain : v.isDeferred = false)
    (segment : Segment) : Option.Rel Resolves (v.child? segment) (w.child? segment) := by
  cases v with
  | array items =>
    obtain ⟨ws, rfl, each⟩ := resolves_array.mp resolves
    cases place : segment.place? with
    | none =>
      simp only [Value.child?, place]
      exact .none
    | some place' =>
      simp only [Value.child?, place]
      exact rel_getElem? each place'
  | map entries =>
    obtain ⟨fs, rfl, each⟩ := resolves_map.mp resolves
    exact rel_lookup each segment.name
  | pending | lazy => cases plain
  | _ =>
    cases resolves.unique (resolves_of_whole rfl)
    exact .none

/-! ## Paths -/

/-- A walk that meets no deferred value above its end resolves to the walk of the resolution. -/
theorem Resolves.walk? {segments : List Segment} (resolves : v.Resolves w)
    (above : ∀ before, before <+: segments → before ≠ segments →
      ∀ found, v.walk? before = some found → found.isDeferred = false) :
    Option.Rel Resolves (v.walk? segments) (w.walk? segments) := by
  induction segments generalizing v w with
  | nil => exact .some resolves
  | cons segment rest ih =>
    have plain := above [] List.nil_prefix nofun v rfl
    have step := resolves.child? plain segment
    have further : ∀ child, v.child? segment = some child → ∀ before, before <+: rest →
        before ≠ rest → ∀ found, child.walk? before = some found → found.isDeferred = false := by
      intro child first before isPrefix proper found there
      refine above (segment :: before) (List.cons_prefix_cons.mpr ⟨rfl, isPrefix⟩)
        (fun same => proper (List.cons.inj same).2) found ?_
      rw [Value.walk?, first]
      exact there
    rw [Value.walk?, Value.walk?]
    generalize v.child? segment = before, w.child? segment = after at step further
    cases step with
    | none => exact .none
    | some resolved => exact ih resolved (further _ rfl)

/-- To read a path and to resolve what is there gives what is at the path after everything has been
resolved, unless the path leads on from something deferred. A path that leads nowhere leads nowhere
in either, and one that leads to null after resolving has led to what resolves to null. -/
theorem get_resolves {v w : Value} {path : Path}
    (resolved : Outcome (fun _ => True) v.resolve (.ok w))
    (above : ∀ before, before <+: path.segments → before ≠ path.segments →
      ∀ found, v.lookup ⟨before⟩ = some found → found.isDeferred = false) :
    (v.get path).Resolves (w.get path) ∧
      Option.Rel Resolves (v.lookup path) (w.lookup path) := by
  have walked := (resolves_iff_outcome.mpr resolved).walk? above
  refine ⟨?_, walked⟩
  unfold Value.get Value.lookup
  generalize v.walk? path.segments = before, w.walk? path.segments = after at walked
  cases walked with
  | none => exact resolves_of_whole rfl
  | some resolves => exact resolves

/-- Data with a list of which each item is deferred. -/
def deferredListing : Value :=
  .map [("user", .map [("tags", .array [.lazy (.host 0) (.int 1),
    .pending (.host 1) 2 none (.ok (.array [.lazy (.host 2) (.string "late")]))])])]

def secondTag : Path := ⟨[.key "user", .key "tags", .index 1]⟩

/-- The second tag of a listing whose parts are deferred. -/
theorem get_resolves_listing :
    (∃ w, Outcome (fun _ => True) deferredListing.resolve (.ok w) ∧
      (deferredListing.get secondTag).Resolves (w.get secondTag)) ∧
    ∀ before, before <+: secondTag.segments → before ≠ secondTag.segments →
      ∀ found, deferredListing.lookup ⟨before⟩ = some found → found.isDeferred = false := by
  have above : ∀ before, before <+: secondTag.segments → before ≠ secondTag.segments →
      ∀ found, deferredListing.lookup ⟨before⟩ = some found → found.isDeferred = false := by
    intro before isPrefix proper found there
    rcases List.prefix_cons_iff.mp isPrefix with rfl | ⟨_, rfl, one⟩
    · cases there
      rfl
    rcases List.prefix_cons_iff.mp one with rfl | ⟨_, rfl, two⟩
    · cases there
      rfl
    rcases List.prefix_cons_iff.mp two with rfl | ⟨_, rfl, three⟩
    · cases there
      rfl
    · cases List.prefix_nil.mp three
      exact absurd rfl proper
  have resolved : Outcome (fun _ => True) deferredListing.resolve
      (.ok (.map [("user", .map [("tags", .array [.int 1, .array [.string "late"]])])])) :=
    resolves_iff_outcome.mp (resolves_iff_computed.mpr rfl)
  exact ⟨⟨_, resolved, (get_resolves resolved above).1⟩, above⟩

end Stencil.Value
