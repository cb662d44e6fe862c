import Stencil.Proofs.Rendering.Scopes
import Stencil.Tags.Builtin

/-! # What the built-in tags depend on

A built-in tag depends on its parameters, on the text of its body and on the current data. Of the
store it only uses the parsed date patterns, so under any comparison that gives date patterns the
same parse the built-in tags compare with themselves.
-/

namespace Stencil

open Comparison

variable {C : Comparison} {a b : Call}

/-! ## Checks of a call -/

namespace Comparison.Calls

/-- A call compares with itself when its body does. -/
theorem self (bodies : ∀ body ∈ a.body, C.Bodies body body) : C.Calls a a := by
  refine ⟨rfl, rfl, rfl, ?_⟩
  cases given : a.body with
  | none => exact .none
  | some body => exact .some (bodies body given)

variable (same : C.Calls a b)
include same

theorem parameter (place : Nat) : a.parameter place = b.parameter place := by
  unfold Call.parameter
  rw [same.parameters]

theorem reject {α : Type} {V : α → α → Prop} (fault : TagFault) :
    C.Related V (a.reject fault) (b.reject fault) := by
  unfold Call.reject Call.error
  rw [same.name, same.source]
  exact .throw _

theorem requireCount (expected : Nat) :
    C.Related Eq (a.requireCount expected) (b.requireCount expected) := by
  unfold Call.requireCount
  rw [same.parameters]
  split
  · exact .pure rfl
  · exact same.reject _

theorem requireNoBody : C.Related Eq a.requireNoBody b.requireNoBody := by
  unfold Call.requireNoBody
  have bodies := same.body
  generalize a.body = body at bodies ⊢
  generalize b.body = body' at bodies ⊢
  cases bodies with
  | none => exact .pure rfl
  | some _ => exact same.reject _

theorem requireBody : C.Related C.Bodies a.requireBody b.requireBody := by
  unfold Call.requireBody
  have bodies := same.body
  generalize a.body = body at bodies ⊢
  generalize b.body = body' at bodies ⊢
  cases bodies with
  | none => exact same.reject _
  | some bodies => exact .pure bodies

theorem bodyText : C.Related Eq a.bodyText b.bodyText :=
  same.requireBody.bind fun _ _ bodies => bodies.text

theorem singleText : C.Related Eq (Tags.singleText a) (Tags.singleText b) := by
  apply (same.requireCount 1).bind
  intro _ _ _
  rw [same.parameter 0]
  exact .pure rfl

end Comparison.Calls

/-! ## Handlers -/

/-- Date patterns parse alike. -/
def Comparison.Dates (C : Comparison) : Prop :=
  ∀ text, C.Related Eq (Evaluation.store (Tags.patternOf text))
    (Evaluation.store (Tags.patternOf text))

namespace Tags

theorem print_related : C.Handlers print print := by
  intro a b same
  apply same.requireNoBody.bind
  intro _ _ _
  apply same.singleText.bind
  rintro text _ rfl
  exact .pure (C.refl _)

theorem verbatim_related : C.Handlers verbatim verbatim := by
  intro a b same
  apply same.requireNoBody.bind
  intro _ _ _
  apply same.singleText.bind
  rintro text _ rfl
  exact .pure (C.refl _)

theorem contains_related : C.Handlers contains contains := by
  intro a b same
  apply (same.requireCount 2).bind
  intro _ _ _
  rw [same.parameter 0, same.parameter 1]
  exact .pure (C.refl _)

theorem textMap_related (f : String → String) : C.Handlers (textMap f) (textMap f) := by
  intro a b same
  apply same.singleText.bind
  rintro text _ rfl
  exact .pure (C.refl _)

theorem count_related : C.Handlers count count := by
  intro a b same
  apply (same.requireCount 1).bind
  intro _ _ _
  rw [same.parameter 0]
  exact .pure (C.refl _)

theorem comment_related : C.Handlers comment comment := fun _ _ _ => .pure (C.refl _)

theorem assigned_related (same : C.Calls a b) : C.Related Eq (assigned a) (assigned b) := by
  unfold assigned
  rw [same.parameters]
  split
  · apply same.bodyText.bind
    rintro text _ rfl
    exact .pure rfl
  · apply same.requireNoBody.bind
    intro _ _ _
    exact .pure (same.parameter 1)

theorem assign_related : C.Handlers assign assign := by
  intro a b same
  unfold assign
  rw [same.parameters, same.parameter 0]
  dsimp only
  split
  · cases (b.parameter 0).asString with
    | none => exact same.reject _
    | some key =>
      apply (assigned_related same).bind
      rintro value _ rfl
      apply Related.data.bind
      intro x y data
      have written := C.trySet data (Path.parse key) value
      generalize x.trySet (Path.parse key) value = result at written ⊢
      generalize y.trySet (Path.parse key) value = result' at written ⊢
      cases written with
      | ok changed => exact (Related.set changed).bind fun _ _ _ => .pure (C.refl _)
      | error refused => exact same.reject _
  · exact same.reject _

/-- The date tag is carried over where the memo is. -/
theorem date_related (dates : C.Dates) : C.Handlers date date := by
  intro a b same
  unfold date
  rw [same.parameters, same.parameter 0, same.parameter 1]
  dsimp only
  split
  · cases (b.parameter 0).asFloat with
    | none => exact same.reject _
    | some seconds =>
      dsimp only
      cases patternText? (b.parameter 1) with
      | none => exact same.reject _
      | some text =>
        apply (dates text).bind
        rintro pattern _ rfl
        cases pattern with
        | none => exact same.reject _
        | some pattern =>
          dsimp only
          cases (Calendar.Instant.ofSeconds? seconds).bind pattern.format? with
          | none => exact same.reject _
          | some text => exact .pure (C.refl _)
  · exact same.reject _

end Tags

/-! ## The registry -/

namespace Comparison.Registries

variable {tags tags' : Registry}

theorem empty : C.Registries .empty .empty := fun _ => .none

theorem register (same : C.Registries tags tags') (name : String) {handler handler' : Handler}
    (handlers : C.Handlers handler handler') :
    C.Registries (tags.register name handler) (tags'.register name handler') := by
  intro other
  unfold Registry.register Registry.erase Registry.find?
  by_cases here : other = name
  · subst here
    rw [List.lookup_cons_self, List.lookup_cons_self]
    exact .some handlers
  · rw [lookup_cons_ne here, lookup_cons_ne here, lookup_filter_ne here, lookup_filter_ne here]
    exact same other

/-- Registries stay related when related tags are registered. -/
theorem registerAll (same : C.Registries tags tags') {entries entries' : List (String × Handler)}
    (each : List.Forall₂ (fun entry entry' => entry.1 = entry'.1 ∧ C.Handlers entry.2 entry'.2)
      entries entries') : C.Registries (tags.registerAll entries) (tags'.registerAll entries') := by
  induction each generalizing tags tags' with
  | nil => exact same
  | @cons entry entry' _ _ first _ ih =>
    have registered := same.register entry.1 first.2
    rw [first.1] at registered
    unfold Registry.registerAll
    rw [List.foldl_cons, List.foldl_cons, first.1]
    exact ih registered

end Comparison.Registries

/-- The built-in tags compare with themselves when date patterns parse alike. -/
theorem Tags.builtin_related (dates : C.Dates) : C.Registries builtin builtin :=
  Comparison.Registries.empty.registerAll <|
    .cons ⟨rfl, print_related⟩ <| .cons ⟨rfl, verbatim_related⟩ <|
    .cons ⟨rfl, contains_related⟩ <| .cons ⟨rfl, textMap_related _⟩ <|
    .cons ⟨rfl, textMap_related _⟩ <| .cons ⟨rfl, textMap_related _⟩ <|
    .cons ⟨rfl, count_related⟩ <| .cons ⟨rfl, assign_related⟩ <|
    .cons ⟨rfl, assign_related⟩ <| .cons ⟨rfl, date_related dates⟩ <|
    .cons ⟨rfl, comment_related⟩ .nil

end Stencil
