import Stencil.Evaluation
import Stencil.Proofs.Routine.Joined

/-! # What resolving computes

Resolving a value waits for what is deferred in it, and others may change the store meanwhile. What
it ends with is told by the value alone: everything deferred is replaced by what it was made to
become, and one deferred failure fails the whole.
-/

namespace Stencil

open Routine (Assured Joined)

/-- A condition on stores that depends on the kept templates and on the notes only. -/
def Store.Lasting (I : Store → Prop) : Prop :=
  ∀ s t : Store, I s → t.cache = s.cache → t.notes = s.notes → I t

theorem Store.lasting_true : Lasting fun _ => True := fun _ _ _ _ _ => trivial

theorem Store.Lasting.finish {I : Store → Prop} (lasting : Lasting I) {s : Store} (kept : I s)
    (handle : Handle) (note : Option String) : I (s.finish handle note) := by
  unfold Store.finish
  dsimp only
  split
  · exact kept
  · cases note <;> exact lasting s _ kept rfl rfl

theorem Attempt.map_assured {α β : Type} {I : Store → Prop} {f : α → β} {attempt : Attempt α}
    {o : Option α} (assured : Assured I (fun result => result.toOption = o) attempt) :
    Assured I (fun result => result.toOption = o.map f) (attempt.map f) := by
  apply assured.bind
  rintro result rfl
  cases result <;> exact .done rfl

namespace Value

mutual

/-- The value with all that is deferred in it computed, unless something in it fails. -/
def computed? : Value → Option Value
  | pending _ _ _ (.ok value) => value.computed?
  | pending _ _ _ (.error _) => none
  | lazy _ value => value.computed?
  | array items => (computedItems? items).map array
  | map entries => (computedEntries? entries).map map
  | value => some value

/-- The items with all that is deferred in them computed. -/
def computedItems? : List Value → Option (List Value)
  | [] => some []
  | item :: rest => return (← item.computed?) :: (← computedItems? rest)

/-- The entries with all that is deferred in their values computed. -/
def computedEntries? : List (String × Value) → Option (List (String × Value))
  | [] => some []
  | (key, item) :: rest => return (← item.computed?.map (key, ·)) :: (← computedEntries? rest)

end

theorem computedItems?_eq (items : List Value) : computedItems? items = items.mapM computed? := by
  induction items with
  | nil => rfl
  | cons item rest ih => rw [computedItems?, List.mapM_cons, ih]

/-- Computing keeps the number of items. -/
theorem length_of_computedItems? {items computed : List Value}
    (all : computedItems? items = some computed) : computed.length = items.length := by
  induction items generalizing computed with
  | nil =>
    cases all
    rfl
  | cons item rest ih =>
    rw [computedItems?] at all
    simp only [Option.bind_eq_bind, Option.bind_eq_some_iff, Option.pure_def] at all
    obtain ⟨first, _, others, rested, same⟩ := all
    cases same
    exact congrArg (· + 1) (ih rested)

theorem computedEntries?_eq (entries : List (String × Value)) : computedEntries? entries =
    entries.mapM fun entry => entry.2.computed?.map (entry.1, ·) := by
  induction entries with
  | nil => rfl
  | cons entry rest ih => rw [computedEntries?, List.mapM_cons, ih]

theorem computedItems?_append (items others : List Value) : computedItems? (items ++ others) = do
    return (← computedItems? items) ++ (← computedItems? others) := by
  rw [computedItems?_eq, computedItems?_eq, computedItems?_eq, List.mapM_append]

/-! ## Resolving -/

section

variable {I : Store → Prop} (lasting : Store.Lasting I)
include lasting

/-- Waiting always comes to an end. -/
theorem waitFor_assured (handle : Handle) (delay patience : Nat) :
    Assured I (fun _ => True) (waitFor handle delay patience) := by
  induction patience with
  | zero => exact .done trivial
  | succ patience ih =>
    intro s kept
    unfold waitFor
    apply Routine.Keeps.read
    split
    · exact .write (.pause (lasting s _ kept rfl rfl) ih)
    · exact .done trivial kept

theorem await_assured (handle : Handle) (delay : Nat) (note : Option String) :
    Assured I (fun _ => True) (await handle delay note) :=
  (waitFor_assured lasting handle delay delay).bind fun _ _ =>
    .step (fun _ _ => trivial) fun _ kept => lasting.finish kept handle note

end

mutual

/-- Resolving a value gives it computed, whatever it has to wait for. -/
theorem resolve_assured {I : Store → Prop} (lasting : Store.Lasting I) : ∀ value : Value,
    Assured I (fun result => result.toOption = value.computed?) value.resolve
  | null | bool _ | int _ | float _ | string _ | bytes _ => by
    unfold resolve computed?
    exact .done rfl
  | pending handle delay note (.ok value) => by
    unfold resolve computed?
    exact (await_assured lasting handle delay note).bind fun _ _ => resolve_assured lasting value
  | pending handle delay note (.error e) => by
    unfold resolve computed?
    exact (await_assured lasting handle delay note).bind fun _ _ => .done rfl
  | lazy _ value => by
    unfold resolve computed?
    exact resolve_assured lasting value
  | array items => by
    unfold resolve computed?
    rw [computedItems?_eq]
    exact Attempt.map_assured ((Assured.joinAll (resolveItems_assured lasting items)).mono
      fun _ => Joined.toOption_eq)
  | map entries => by
    unfold resolve computed?
    rw [computedEntries?_eq]
    exact Attempt.map_assured ((Assured.joinAll (resolveEntries_assured lasting entries)).mono
      fun _ => Joined.toOption_eq)

theorem resolveItems_assured {I : Store → Prop} (lasting : Store.Lasting I) :
    ∀ items : List Value, List.Forall₂ (Assured I)
      (items.map fun item result => result.toOption = item.computed?) (resolveItems items)
  | [] => .nil
  | item :: rest => by
    unfold resolveItems
    exact .cons (resolve_assured lasting item) (resolveItems_assured lasting rest)

theorem resolveEntries_assured {I : Store → Prop} (lasting : Store.Lasting I) :
    ∀ entries : List (String × Value), List.Forall₂ (Assured I)
      (entries.map fun entry result => result.toOption = entry.2.computed?.map (entry.1, ·))
      (resolveEntries entries)
  | [] => .nil
  | (key, item) :: rest => by
    unfold resolveEntries
    exact .cons (Attempt.map_assured (resolve_assured lasting item))
      (resolveEntries_assured lasting rest)

end

/-- Items are resolved to their computed values, or one of them fails. -/
theorem joinAll_resolveItems_assured {I : Store → Prop} (lasting : Store.Lasting I)
    (items : List Value) : Assured I (fun result => result.toOption = computedItems? items)
      (Routine.joinAll (resolveItems items)) := by
  rw [computedItems?_eq]
  exact (Assured.joinAll (resolveItems_assured lasting items)).mono fun _ => Joined.toOption_eq

end Value

end Stencil
