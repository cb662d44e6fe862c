import Stencil.Proofs.Rendering.Comparison
import Stencil.Proofs.Rendering.Computed

/-! # Success that carries over

An attempt transfers to another when the other is sure to succeed, with a related result, as soon as
the first can succeed. Both may pause as often as they like, and may end at different times, while
others change the store within a condition. What templates are evaluated with transfers part by
part, so this is a comparison of evaluations; values need only agree on what they compute to.
-/

namespace Stencil

open Routine (Assured Ended Outcome)

variable {α β α' β' : Type} {I : Store → Prop} {V : α → β → Prop} {W : α' → β' → Prop}

/-- The first attempt ends, and when it can succeed then the second surely does. -/
structure Attempt.Transfers (I : Store → Prop) (V : α → β → Prop) (r : Attempt α)
    (q : Attempt β) : Prop where
  ends : Assured I (fun _ => True) r
  carries : ∀ a, Outcome I r (.ok a) → Assured I (fun result => ∃ b, result = .ok b ∧ V a b) q

namespace Attempt.Transfers

theorem ok {a : α} {b : β} (same : V a b) : Transfers I V (.of (.ok a)) (.of (.ok b)) where
  ends := .done trivial
  carries _ possible := by
    cases Routine.outcome_done possible
    exact .done ⟨b, rfl, same⟩

/-- What fails transfers to everything. -/
theorem error (why : Error) (q : Attempt β) : Transfers I V (.of (.error why)) q where
  ends := .done trivial
  carries _ possible := nomatch Routine.outcome_done possible

/-- Attempts that are sure to end alike up to their errors. -/
theorem of_toOption {V : α → α → Prop} {o : Option α} {r q : Attempt α}
    (left : Assured I (fun result => result.toOption = o) r)
    (right : Assured I (fun result => result.toOption = o) q)
    (related : ∀ a, o = some a → V a a) : Transfers I V r q where
  ends := left.mono fun _ _ => trivial
  carries a possible := by
    have ended := left.of_outcome possible
    apply right.mono
    rintro result same
    rw [← ended] at same
    cases result with
    | error why => cases same
    | ok b =>
      cases same
      exact ⟨a, rfl, related a ended.symm⟩

/-- An attempt that ends transfers to one that succeeds. -/
theorem of_succeeds {r : Attempt α} {q : Attempt β} (left : Assured I (fun _ => True) r)
    (right : Assured I (fun result => ∃ b, result = .ok b ∧ ∀ a, V a b) q) : Transfers I V r q where
  ends := left
  carries a _ := right.mono fun _ ⟨b, same, related⟩ => ⟨b, same, related a⟩

/-- What the first attempt can succeed with has a counterpart. -/
theorem exists_related {r : Attempt α} {q : Attempt β} (first : Transfers I V r q) {a : α}
    (possible : Outcome I r (.ok a)) : ∃ b, V a b := by
  obtain ⟨s, _, kept, _⟩ := id possible
  obtain ⟨b, _, same⟩ := ((first.carries a possible) s kept).run.1
  exact ⟨b, same⟩

/-- Goes on in the first attempt alone. -/
theorem skip {r : Attempt α} {f : α → Attempt α'} {q : Attempt β'}
    (ends : Assured I (fun _ => True) r)
    (next : ∀ a, Outcome I r (.ok a) → Transfers I W (f a) q) : Transfers I W (r.andThen f) q where
  ends := by
    apply ends.outcome.bind
    intro result possible
    cases result with
    | error why => exact .done trivial
    | ok a => exact (next a possible).ends
  carries a' possible := by
    obtain ⟨result, whole, possible⟩ := ends.outcome_bind possible
    cases result with
    | error why => exact nomatch Routine.outcome_done possible
    | ok a => exact (next a whole).carries a' possible

theorem andThen {r : Attempt α} {q : Attempt β} {f : α → Attempt α'} {g : β → Attempt β'}
    (first : Transfers I V r q) (next : ∀ a b, V a b → Transfers I W (f a) (g b)) :
    Transfers I W (r.andThen f) (q.andThen g) := by
  apply skip first.ends
  intro a possible
  constructor
  case ends =>
    obtain ⟨b, same⟩ := first.exists_related possible
    exact (next a b same).ends
  case carries =>
    intro a' ended
    apply (first.carries a possible).bind
    rintro _ ⟨b, rfl, same⟩
    exact (next a b same).carries a' ended

/-- Groups of attempts carry over in their order. -/
theorem joinAll {group : List (Attempt α)} {group' : List (Attempt β)}
    (each : List.Forall₂ (Transfers I V) group group') :
    Transfers I (List.Forall₂ V) (Routine.joinAll group) (Routine.joinAll group') := by
  have ends : ∀ r ∈ group, Assured I (fun _ => True) r := by
    induction each with
    | nil => exact nofun
    | cons first _ ih => exact List.forall_mem_cons.mpr ⟨first.ends, ih⟩
  have assured := Assured.joinAll_outcome ends
  constructor
  case ends => exact assured.mono fun _ _ => trivial
  case carries =>
    intro values possible
    have each' := assured.of_outcome possible
    rw [Routine.Joined, List.forall₂_map_right_iff] at each'
    have sure : List.Forall₂ (Assured I)
        (values.map fun a result => ∃ b, result = .ok b ∧ V a b) group' := by
      rw [List.forall₂_map_left_iff]
      clear possible ends assured
      induction each generalizing values with
      | nil =>
        cases each'
        exact .nil
      | cons first _ ih =>
        cases each' with
        | cons possible rest => exact .cons (first.carries _ possible) (ih _ rest)
    apply (Assured.joinAll sure).mono
    intro result joined
    cases result with
    | error why =>
      obtain ⟨kind, member, fails⟩ := joined
      obtain ⟨a, _, rfl⟩ := List.mem_map.mp member
      obtain ⟨b, wrong, _⟩ := fails
      cases wrong
    | ok results =>
      refine ⟨results, rfl, ?_⟩
      rw [Routine.Joined, List.forall₂_map_right_iff] at joined
      refine joined.flip.imp ?_
      rintro a result ⟨b, same, related⟩
      cases same
      exact related

end Attempt.Transfers

/-- Related data read alike, up to what is deferred, and can be derived and written alike. -/
structure Value.KeptByAccess (D : Value → Value → Prop) : Prop where
  get {x y : Value} (same : D x y) (path : Path) : (x.get path).computed? = (y.get path).computed?
  derive {x y : Value} (same : D x y) (bindings : List (String × Value)) :
    D (x.derive bindings) (y.derive bindings)
  trySet {x y : Value} (same : D x y) (path : Path) (written : Value) :
    Ended D (x.trySet path written) (y.trySet path written)

theorem Value.keptByAccess_eq : KeptByAccess Eq where
  get same path := by rw [same]
  derive same bindings := by rw [same]
  trySet same path written := by
    subst same
    exact .refl .refl _

/-- Values that compute to the same transfer when they are resolved. -/
theorem Value.resolve_transfers (lasting : Store.Lasting I) {v w : Value}
    (same : v.computed? = w.computed?) : Attempt.Transfers I Eq v.resolve w.resolve :=
  .of_toOption (same ▸ resolve_assured lasting v) (resolve_assured lasting w) fun _ _ => rfl

theorem Value.computedItems?_congr {vs ws : List Value}
    (same : List.Forall₂ (fun v w => v.computed? = w.computed?) vs ws) :
    computedItems? vs = computedItems? ws := by
  induction same with
  | nil => rfl
  | cons first _ ih => rw [computedItems?, computedItems?, first, ih]

theorem Value.computed?_array {vs ws : List Value}
    (same : List.Forall₂ (fun v w => v.computed? = w.computed?) vs ws) :
    (array vs).computed? = (array ws).computed? := by
  unfold computed?
  rw [computedItems?_congr same]

/-- Success that carries over, among attempts that others interrupt within a condition on stores,
on values that compute to the same and on data that are related. -/
def Comparison.transfers (lasting : Store.Lasting I) {D : Value → Value → Prop}
    (kept : Value.KeptByAccess D) : Comparison where
  Rel := Attempt.Transfers I
  Val v w := v.computed? = w.computed?
  Data := D
  ok := .ok
  error why := .error why _
  andThen := .andThen
  joinAll := .joinAll
  resolve := Value.resolve_transfers lasting
  refl _ := rfl
  array := Value.computed?_array
  get := kept.get
  derive := kept.derive
  trySet := kept.trySet

/-- Goes on in the first evaluation alone. -/
theorem Comparison.Related.skip {lasting : Store.Lasting I} {D : Value → Value → Prop}
    {kept : Value.KeptByAccess D} {r : Attempt α} {f : α → Evaluation α'} {g : Evaluation β'}
    (ends : Assured I (fun _ => True) r)
    (next : ∀ a, Outcome I r (.ok a) → (transfers lasting kept).Related W (f a) g) :
    (transfers lasting kept).Related W (Evaluation.ofAttempt r >>= f) g := by
  intro x y data
  rw [Evaluation.outcome_bind, Evaluation.outcome_ofAttempt, Attempt.andThen_assoc]
  exact .skip ends fun a possible => next a possible x y data

end Stencil
