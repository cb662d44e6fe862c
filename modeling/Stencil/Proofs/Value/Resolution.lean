import Stencil.Proofs.Routine.Always
import Stencil.Proofs.Routine.Over
import Stencil.Proofs.Value.Failures

/-! # What is left after resolving

A value is whole when nothing in it is deferred. Resolving takes out what is deferred and leaves
everything else where it was: items keep their places and entries their keys, and a whole value is
over at once. What it succeeds with is whole and told by the value alone, and it fails exactly when
something deferred does.
-/

namespace Stencil

open Routine (Always Assured OnSuccess Outcome)

/-! ## Lists side by side -/

section

variable {α β : Type} {R : α → β → Prop} {as : List α} {bs : List β}

theorem exists_right_of_forall₂ (each : List.Forall₂ R as bs) {a : α} (member : a ∈ as) :
    ∃ b ∈ bs, R a b := by
  induction each with
  | nil => cases member
  | @cons _ b _ _ first _ ih =>
    rcases List.mem_cons.mp member with rfl | member
    · exact ⟨b, List.mem_cons_self, first⟩
    · obtain ⟨other, among, related⟩ := ih member
      exact ⟨other, List.mem_cons_of_mem _ among, related⟩

theorem exists_left_of_forall₂ (each : List.Forall₂ R as bs) {b : β} (member : b ∈ bs) :
    ∃ a ∈ as, R a b :=
  exists_right_of_forall₂ (R := fun b a => R a b) each.flip member

theorem forall₂_imp_of_mem {S : α → β → Prop} (each : List.Forall₂ R as bs)
    (weaker : ∀ a ∈ as, ∀ b, R a b → S a b) : List.Forall₂ S as bs := by
  induction each with
  | nil => exact .nil
  | cons first _ ih =>
    obtain ⟨front, rest⟩ := List.forall_mem_cons.mp weaker
    exact .cons (front _ first) (ih rest)

theorem mapM_eq_some_iff {f : α → Option β} :
    as.mapM f = some bs ↔ List.Forall₂ (fun a b => f a = some b) as bs := by
  induction as generalizing bs with
  | nil => simp [eq_comm]
  | cons a as ih =>
    rw [List.mapM_cons, List.forall₂_cons_left_iff]
    simp only [Option.bind_eq_bind, Option.bind_eq_some_iff, Option.pure_def, Option.some.injEq,
      ih]
    constructor
    · rintro ⟨b, first, rest, others, rfl⟩
      exact ⟨b, rest, first, others, rfl⟩
    · rintro ⟨b, rest, first, others, rfl⟩
      exact ⟨b, first, rest, others, rfl⟩

end

namespace Value

variable {value w : Value} {items ws : List Value} {entries fs : List (String × Value)}

/-- What holds of a value when it holds of its parts holds of every value. -/
@[elab_as_elim]
theorem parts_induction {P : Value → Prop} (null : P null) (bool : ∀ b, P (bool b))
    (int : ∀ i, P (int i)) (float : ∀ x, P (float x)) (string : ∀ s, P (string s))
    (bytes : ∀ data, P (bytes data))
    (array : ∀ items, (∀ item ∈ items, P item) → P (array items))
    (map : ∀ entries, (∀ entry ∈ entries, P entry.2) → P (map entries))
    (failed : ∀ handle delay note why, P (pending handle delay note (.error why)))
    (pending : ∀ handle delay note value, P value → P (pending handle delay note (.ok value)))
    (lazy : ∀ handle value, P value → P (lazy handle value)) : ∀ value, P value
  | .null => null
  | .bool b => bool b
  | .int i => int i
  | .float x => float x
  | .string s => string s
  | .bytes data => bytes data
  | .array items => array items fun item _ =>
    parts_induction null bool int float string bytes array map failed pending lazy item
  | .map entries => map entries fun entry _ =>
    parts_induction null bool int float string bytes array map failed pending lazy entry.2
  | .pending handle delay note (.error why) => failed handle delay note why
  | .pending handle delay note (.ok value) => pending handle delay note value
    (parts_induction null bool int float string bytes array map failed pending lazy value)
  | .lazy handle value => lazy handle value
    (parts_induction null bool int float string bytes array map failed pending lazy value)
termination_by value => sizeOf value
decreasing_by
  · have smaller := List.sizeOf_lt_of_mem ‹item ∈ items›
    simp only [Value.array.sizeOf_spec]
    omega
  · have smaller := List.sizeOf_lt_of_mem ‹entry ∈ entries›
    obtain ⟨key, item⟩ := entry
    simp only [Value.map.sizeOf_spec, Prod.mk.sizeOf_spec] at smaller ⊢
    omega
  · simp only [Value.pending.sizeOf_spec, Except.ok.sizeOf_spec]
    omega
  · simp only [Value.lazy.sizeOf_spec]
    omega

/-! ## Whole values -/

theorem whole_array :
    (array items).needsResolution = false ↔ ∀ item ∈ items, item.needsResolution = false := by
  rw [needsResolution]
  induction items with
  | nil => exact ⟨fun _ => nofun, fun _ => rfl⟩
  | cons item rest ih => rw [anyItem, Bool.or_eq_false_iff, ih, List.forall_mem_cons]

theorem whole_map :
    (map entries).needsResolution = false ↔ ∀ entry ∈ entries, entry.2.needsResolution = false := by
  rw [needsResolution]
  induction entries with
  | nil => exact ⟨fun _ => nofun, fun _ => rfl⟩
  | cons entry rest ih => rw [anyEntry, Bool.or_eq_false_iff, ih, List.forall_mem_cons]

theorem resolveItems_eq_map (items : List Value) : resolveItems items = items.map resolve := by
  induction items with
  | nil => rfl
  | cons item rest ih => rw [resolveItems, List.map_cons, ih]

theorem resolveEntries_eq_map (entries : List (String × Value)) :
    resolveEntries entries = entries.map fun entry => Attempt.map (entry.1, ·) entry.2.resolve := by
  induction entries with
  | nil => rfl
  | cons entry rest ih => rw [resolveEntries, List.map_cons, ih]

/-- The value has nothing deferred in it. -/
def Settled (value : Value) : Prop := value.resolve = .done (.ok value)

theorem resolveItems_of_settled {values : List Value}
    (settled : ∀ value ∈ values, value.Settled) :
    resolveItems values = values.map fun value => .done (.ok value) := by
  rw [resolveItems_eq_map]
  exact List.map_congr_left settled

theorem resolveEntries_of_settled (settled : ∀ entry ∈ entries, entry.2.Settled) :
    resolveEntries entries = entries.map fun entry => .done (.ok entry) := by
  rw [resolveEntries_eq_map]
  refine List.map_congr_left fun entry member => ?_
  rw [settled entry member]
  rfl

/-- Nothing has to be waited for in a whole value. -/
theorem settled_of_whole (whole : value.needsResolution = false) : value.Settled := by
  induction value using parts_induction with
  | array items ih =>
    have settled := fun item member => ih item member (whole_array.mp whole item member)
    rw [Settled, resolve, resolveItems_of_settled settled, Routine.joinAll_done]
    rfl
  | map entries ih =>
    have settled := fun entry member => ih entry member (whole_map.mp whole entry member)
    rw [Settled, resolve, resolveEntries_of_settled settled, Routine.joinAll_done]
    rfl
  | failed | pending | lazy => cases whole
  | _ => simp [Settled, resolve]

theorem settled_bytes (bytes : List UInt8) : (Value.bytes bytes).Settled := settled_of_whole rfl

theorem settled_string (text : String) : (Value.string text).Settled := settled_of_whole rfl

/-! ## Computed values -/

theorem computed?_array_eq_some :
    (array items).computed? = some w ↔ ∃ ws, w = .array ws ∧
      List.Forall₂ (fun item w => item.computed? = some w) items ws := by
  rw [computed?, computedItems?_eq, Option.map_eq_some_iff]
  simp only [mapM_eq_some_iff]
  constructor
  · rintro ⟨ws, each, rfl⟩
    exact ⟨ws, rfl, each⟩
  · rintro ⟨ws, rfl, each⟩
    exact ⟨ws, each, rfl⟩

theorem computed?_map_eq_some :
    (map entries).computed? = some w ↔ ∃ fs, w = .map fs ∧
      List.Forall₂ (fun entry f => entry.1 = f.1 ∧ entry.2.computed? = some f.2) entries fs := by
  have kept (entry f : String × Value) : entry.2.computed?.map (entry.1, ·) = some f ↔
      entry.1 = f.1 ∧ entry.2.computed? = some f.2 := by
    obtain ⟨key, item⟩ := f
    simp [Option.map_eq_some_iff, and_comm]
  rw [computed?, computedEntries?_eq, Option.map_eq_some_iff]
  simp only [mapM_eq_some_iff, kept]
  constructor
  · rintro ⟨fs, each, rfl⟩
    exact ⟨fs, rfl, each⟩
  · rintro ⟨fs, rfl, each⟩
    exact ⟨fs, each, rfl⟩

theorem whole_of_computed? (computed : value.computed? = some w) : w.needsResolution = false := by
  induction value using parts_induction generalizing w with
  | array items ih =>
    obtain ⟨ws, rfl, each⟩ := computed?_array_eq_some.mp computed
    refine whole_array.mpr fun w member => ?_
    obtain ⟨item, among, computed⟩ := exists_left_of_forall₂ each member
    exact ih item among computed
  | map entries ih =>
    obtain ⟨fs, rfl, each⟩ := computed?_map_eq_some.mp computed
    refine whole_map.mpr fun f member => ?_
    obtain ⟨entry, among, _, computed⟩ := exists_left_of_forall₂ each member
    exact ih entry among computed
  | failed => cases computed
  | pending _ _ _ value ih => exact ih computed
  | lazy _ value ih => exact ih computed
  | _ =>
    cases computed
    rfl

/-- What fails in a value cannot be computed. -/
theorem Fails.not_computed {why : Error} (fails : value.Fails why) : value.computed? ≠ some w := by
  induction fails generalizing w with
  | failed => exact nofun
  | pending _ ih => exact ih
  | lazy _ ih => exact ih
  | item member _ ih =>
    intro computed
    obtain ⟨ws, _, each⟩ := computed?_array_eq_some.mp computed
    obtain ⟨w, _, computed⟩ := exists_right_of_forall₂ each member
    exact ih computed
  | entry member _ ih =>
    intro computed
    obtain ⟨fs, _, each⟩ := computed?_map_eq_some.mp computed
    obtain ⟨f, _, _, computed⟩ := exists_right_of_forall₂ each member
    exact ih computed

/-! ## Resolving -/

/-- Resolving the value succeeds with the other one, whatever others do to the store meanwhile. -/
def Resolves (value w : Value) : Prop := Assured (fun _ => True) (· = .ok w) value.resolve

/-- The resolution is the value that is computed. -/
theorem resolves_iff_computed : value.Resolves w ↔ value.computed? = some w := by
  constructor
  · intro resolves
    have possible := resolves.outcome_run (s := Store.empty) trivial
    have same := resolves.of_outcome possible
    rw [same] at possible
    exact ((resolve_assured Store.lasting_true value).of_outcome possible).symm
  · intro computed
    refine (resolve_assured Store.lasting_true value).mono fun result same => ?_
    cases result with
    | ok v => exact congrArg Except.ok (Option.some.inj (same.trans computed))
    | error e => cases same.trans computed

/-- Resolving ends: with what the value always resolves to, or as something in it fails. -/
theorem resolve_ends (value : Value) : Assured (fun _ => True)
    (fun
      | .ok w => value.Resolves w
      | .error why => value.Fails why) value.resolve := by
  refine ((resolve_assured Store.lasting_true value).and
    (resolve_resolvesTo Store.lasting_true value)).mono fun result facts => ?_
  obtain ⟨computed, resolved⟩ := facts
  cases result with
  | ok w => exact resolves_iff_computed.mpr computed.symm
  | error why => exact resolved

/-- The resolution is what the evaluation can end with. -/
theorem resolves_iff_outcome : value.Resolves w ↔
    Outcome (fun _ => True) value.resolve (.ok w) := by
  constructor
  · intro resolves
    have possible := resolves.outcome_run (s := Store.empty) trivial
    rwa [resolves.of_outcome possible] at possible
  · exact value.resolve_ends.of_outcome

/-- A value resolves unless something in it fails. -/
theorem exists_resolves_iff : (∃ w, value.Resolves w) ↔ ∀ why, ¬ value.Fails why := by
  constructor
  · rintro ⟨w, resolves⟩ why fails
    exact fails.not_computed (resolves_iff_computed.mp resolves)
  · intro never
    have ended := (resolve_ends value).outcome_run (s := Store.empty) trivial
    have fact := (resolve_ends value).of_outcome ended
    cases result : (value.resolve.run (.empty)).1 with
    | ok w =>
      rw [result] at fact
      exact ⟨w, fact⟩
    | error why =>
      rw [result] at fact
      exact absurd fact (never why)

theorem Resolves.whole (resolves : value.Resolves w) : w.needsResolution = false :=
  whole_of_computed? (resolves_iff_computed.mp resolves)

/-- A value has one resolution. -/
theorem Resolves.unique (resolves : value.Resolves w) {w' : Value} (resolves' : value.Resolves w') :
    w = w' :=
  Option.some.inj ((resolves_iff_computed.mp resolves).symm.trans
    (resolves_iff_computed.mp resolves'))

theorem resolves_of_whole (whole : value.needsResolution = false) : value.Resolves value := by
  rw [Resolves, settled_of_whole whole]
  exact .done rfl

theorem resolves_pending {handle : Handle} {delay : Nat} {note : Option String} :
    (pending handle delay note (.ok value)).Resolves w ↔ value.Resolves w := by
  rw [resolves_iff_computed, resolves_iff_computed, computed?]

theorem resolves_lazy {handle : Handle} : (lazy handle value).Resolves w ↔ value.Resolves w := by
  rw [resolves_iff_computed, resolves_iff_computed, computed?]

theorem resolves_array : (array items).Resolves w ↔
    ∃ ws, w = .array ws ∧ List.Forall₂ Resolves items ws := by
  have same : Resolves = fun item w => item.computed? = some w :=
    funext₂ fun _ _ => propext resolves_iff_computed
  rw [same]
  exact computed?_array_eq_some

theorem resolves_map : (map entries).Resolves w ↔ ∃ fs, w = .map fs ∧
    List.Forall₂ (fun entry f => entry.1 = f.1 ∧ entry.2.Resolves f.2) entries fs := by
  simp only [resolves_iff_computed, computed?_map_eq_some]

theorem always_of_whole (whole : value.needsResolution = false) :
    Always (OnSuccess fun w => w.needsResolution = false) value.resolve := by
  rw [settled_of_whole whole]
  exact .done (.ok whole)

/-- On every branch, what resolving succeeds with is whole. -/
theorem resolve_always (value : Value) :
    Always (OnSuccess fun w => w.needsResolution = false) value.resolve := by
  induction value using parts_induction with
  | array items ih =>
    rw [resolve, resolveItems_eq_map]
    refine (Always.joinAll (List.forall_mem_map.mpr ih)).bind fun result each => .done ?_
    cases result with
    | ok values => exact .ok (whole_array.mpr (each values rfl))
    | error why => exact .error why
  | map entries ih =>
    rw [resolve, resolveEntries_eq_map]
    have keyed : ∀ entry ∈ entries, Always (OnSuccess fun f : String × Value =>
        f.2.needsResolution = false) (Attempt.map (entry.1, ·) entry.2.resolve) := by
      refine fun entry member => (ih entry member).bind fun result whole => .done ?_
      cases result with
      | ok value => exact .ok (whole value rfl)
      | error why => exact .error why
    refine (Always.joinAll (List.forall_mem_map.mpr keyed)).bind fun result each => .done ?_
    cases result with
    | ok fs => exact .ok (whole_map.mpr (each fs rfl))
    | error why => exact .error why
  | failed handle delay note why =>
    rw [resolve]
    exact (Always.trivial _).bind fun _ _ => .done (.error why)
  | pending handle delay note value ih =>
    rw [resolve]
    exact (Always.trivial _).bind fun _ _ => ih
  | lazy handle value ih =>
    rw [resolve]
    exact ih
  | _ => exact always_of_whole rfl

end Value

end Stencil
