import Stencil.Lookup
import Stencil.Proofs.Value.Failures

/-! # Keys occur once

A map is a list of entries in which a key occurs once. Values are made so: an entry is written in
place of one with its key, or at the end when there is none. What is written under different keys
does not interfere, and entries with keys of their own are just put one after the other.
-/

namespace Stencil

/-! ## Entries -/

namespace Entries

variable {key other : String} {change : Value → Value} {entries fs : List (String × Value)}

theorem insert_of_not_mem (fresh : key ∉ entries.map Prod.fst) (value : Value) :
    insert entries key value = entries ++ [(key, value)] := by
  induction entries with
  | nil => rfl
  | cons entry rest ih =>
    rw [List.map_cons, List.mem_cons, not_or] at fresh
    have differs : ¬ entry.1 = key := Ne.symm fresh.1
    have added := ih fresh.2
    rw [insert] at added ⊢
    rw [update, if_neg differs, added, List.cons_append]

theorem mem_keys_update {name : String} (member : name ∈ (update key change entries).map Prod.fst) :
    name = key ∨ name ∈ entries.map Prod.fst := by
  induction entries with
  | nil => exact .inl (List.mem_singleton.mp member)
  | cons entry rest ih =>
    rw [update] at member
    split at member
    · exact .inr member
    · rcases List.mem_cons.mp member with rfl | member
      · exact .inr List.mem_cons_self
      · exact (ih member).imp_right (List.mem_cons_of_mem _)

theorem nodup_update (distinct : (entries.map Prod.fst).Nodup) :
    ((update key change entries).map Prod.fst).Nodup := by
  induction entries with
  | nil => exact List.pairwise_singleton _ _
  | cons entry rest ih =>
    obtain ⟨first, others⟩ := List.nodup_cons.mp distinct
    rw [update]
    split
    · exact distinct
    · rename_i differs
      refine List.nodup_cons.mpr ⟨fun member => ?_, ih others⟩
      rcases mem_keys_update member with same | member
      · exact differs same
      · exact first member

theorem forall_mem_insert {P : Value → Prop} {value : Value} (holds : P value)
    (each : ∀ entry ∈ entries, P entry.2) : ∀ entry ∈ insert entries key value, P entry.2 := by
  induction entries with
  | nil => exact List.forall_mem_singleton.mpr holds
  | cons entry rest ih =>
    obtain ⟨first, others⟩ := List.forall_mem_cons.mp each
    rw [insert, update]
    split
    · exact List.forall_mem_cons.mpr ⟨holds, others⟩
    · exact List.forall_mem_cons.mpr ⟨first, ih others⟩

/-- Where a key occurs once, looking a key up finds the entry with it. -/
theorem lookup_eq_some_iff_mem (distinct : (entries.map Prod.fst).Nodup) {value : Value} :
    entries.lookup key = some value ↔ (key, value) ∈ entries := by
  induction entries with
  | nil => simp
  | cons entry rest ih =>
    obtain ⟨k, v⟩ := entry
    obtain ⟨first, others⟩ := List.nodup_cons.mp distinct
    by_cases here : key = k
    · subst here
      have absent : (key, value) ∉ rest := fun member =>
        first (List.mem_map.mpr ⟨_, member, rfl⟩)
      simp [absent, eq_comm]
    · have elsewhere : (key == k) = false := beq_eq_false_iff_ne.mpr here
      simp [List.lookup_cons, elsewhere, ih others, here]

/-- Of the values written under a key the last one is found, or else the one that was there. -/
theorem lookup_insertAll (entries fs : List (String × Value)) (name : String) :
    (insertAll entries fs).lookup name = (fs.reverse ++ entries).lookup name := by
  induction fs generalizing entries with
  | nil => rfl
  | cons f rest ih =>
    have first : (insert entries f.1 f.2).lookup name = (f :: entries).lookup name := by
      by_cases same : name = f.1
      · subst same
        rw [insert, lookup_update_self, List.lookup_cons_self]
      · rw [insert, lookup_update_ne _ _ same, lookup_cons_ne same]
    change (insertAll (insert entries f.1 f.2) rest).lookup name = _
    rw [ih, List.lookup_append, first, ← List.lookup_append, List.reverse_cons, List.append_assoc]
    rfl

/-- However often a key is written, it occurs once. -/
theorem nodup_insertAll (distinct : (entries.map Prod.fst).Nodup) :
    ((insertAll entries fs).map Prod.fst).Nodup := by
  induction fs generalizing entries with
  | nil => exact distinct
  | cons f rest ih => exact ih (nodup_update distinct)

/-- Entries whose keys are all different are added as they are. -/
theorem insertAll_of_nodup (distinct : ((entries ++ fs).map Prod.fst).Nodup) :
    insertAll entries fs = entries ++ fs := by
  induction fs generalizing entries with
  | nil => rw [List.append_nil, insertAll, List.foldl_nil]
  | cons f rest ih =>
    have fresh : f.1 ∉ entries.map Prod.fst := by
      rw [List.map_append, List.map_cons] at distinct
      exact fun member => (List.nodup_append.mp distinct).2.2 _ member _ List.mem_cons_self rfl
    have rearranged : entries ++ f :: rest = entries ++ [f] ++ rest := by simp
    rw [rearranged] at distinct ⊢
    rw [← ih distinct, insertAll, List.foldl_cons, insert_of_not_mem fresh]
    rfl

/-- Writing under one key and changing what is under another can be done in either order. -/
theorem insert_update (differs : other ≠ key) (present : (entries.lookup key).isSome = true)
    (value : Value) :
    insert (update key change entries) other value =
      update key change (insert entries other value) := by
  induction entries with
  | nil => cases present
  | cons entry rest ih =>
    obtain ⟨k, v⟩ := entry
    unfold insert at ih ⊢
    by_cases here : k = key
    · subst here
      have elsewhere : ¬ k = other := Ne.symm differs
      simp [update, elsewhere]
    · have beyond : (rest.lookup key).isSome = true := by
        have unlike : (key == k) = false := beq_eq_false_iff_ne.mpr (Ne.symm here)
        rwa [List.lookup_cons, unlike] at present
      by_cases there : k = other
      · subst there
        simp [update, differs]
      · simp [update, here, there, ih beyond]

end Entries

/-! ## Maps inside of values -/

namespace Value

/-- Computing the lazy parts of the first value leads to the second one, at some depth. -/
inductive Meets : Value → Value → Prop
  | here (value : Value) : Meets value value
  | lazy {handle : Handle} {value met : Value} (inside : Meets value met) :
      Meets (.lazy handle value) met
  | item {items : List Value} {item met : Value} (member : item ∈ items)
      (inside : Meets item met) : Meets (.array items) met
  | entry {entries : List (String × Value)} {entry : String × Value} {met : Value}
      (member : entry ∈ entries) (inside : Meets entry.2 met) : Meets (.map entries) met

/-- A key occurs once in each map that computing the lazy parts of the value leads to. -/
def Keyed (value : Value) : Prop :=
  ∀ entries, value.Meets (.map entries) → (entries.map Prod.fst).Nodup

variable {items : List Value} {entries : List (String × Value)}

/-- A value that leads to something deferred still has to be resolved. -/
theorem Meets.needsResolution {value met : Value} (meets : value.Meets met)
    (needed : met.needsResolution = true) : value.needsResolution = true := by
  induction meets with
  | here => exact needed
  | lazy => rfl
  | item member _ ih => exact anyItem_of_mem member (ih needed)
  | entry member _ ih => exact anyEntry_of_mem member (ih needed)

theorem keyed_lazy {handle : Handle} {value : Value} :
    (Value.lazy handle value).Keyed ↔ value.Keyed := by
  constructor
  · exact fun keyed entries inside => keyed entries (.lazy inside)
  · rintro keyed entries (_ | inside)
    exact keyed entries inside

theorem keyed_array : (Value.array items).Keyed ↔ ∀ item ∈ items, item.Keyed := by
  constructor
  · exact fun keyed item member entries inside => keyed entries (.item member inside)
  · rintro each entries (_ | _ | ⟨member, inside⟩)
    exact each _ member entries inside

theorem keyed_map : (Value.map entries).Keyed ↔
    (entries.map Prod.fst).Nodup ∧ ∀ entry ∈ entries, entry.2.Keyed := by
  constructor
  · exact fun keyed => ⟨keyed entries (.here _),
      fun entry member others inside => keyed others (.entry member inside)⟩
  · rintro ⟨distinct, each⟩ others (_ | _ | _ | ⟨member, inside⟩)
    · exact distinct
    · exact each _ member others inside

/-- An insertion keeps the keys unique. -/
theorem keyed_insert {key : String} {value : Value} (keyed : (Value.map entries).Keyed)
    (written : value.Keyed) :
    (Value.map (Entries.insert entries key value)).Keyed := by
  obtain ⟨distinct, each⟩ := Value.keyed_map.mp keyed
  exact Value.keyed_map.mpr ⟨Entries.nodup_update distinct,
    Entries.forall_mem_insert written each⟩

end Value

end Stencil
