/-! # Lookups under a key

Entries under keys are kept as a list in which the first one counts. A key can be dropped, and an
entry put in front; every other key is left as it was.
-/

namespace Stencil

variable {κ α : Type} [BEq κ] [LawfulBEq κ] {key other : κ}

theorem lookup_cons_ne (different : other ≠ key) (value : α) (entries : List (κ × α)) :
    ((key, value) :: entries).lookup other = entries.lookup other := by
  rw [List.lookup_cons, beq_eq_false_iff_ne.mpr different]

theorem lookup_filter_self (key : κ) (entries : List (κ × α)) :
    (entries.filter fun entry => entry.1 != key).lookup key = none := by
  rw [List.lookup_eq_none_iff]
  intro entry member
  have different := (List.mem_filter.mp member).2
  rw [bne_comm]
  exact different

theorem lookup_filter_ne (different : other ≠ key) (entries : List (κ × α)) :
    (entries.filter fun entry => entry.1 != key).lookup other = entries.lookup other := by
  induction entries with
  | nil => rfl
  | cons entry entries ih =>
    obtain ⟨name, value⟩ := entry
    by_cases same : name = key
    · subst same
      rw [List.filter_cons_of_neg (by simp), ih, lookup_cons_ne different]
    · rw [List.filter_cons_of_pos (by simpa using same), List.lookup_cons, List.lookup_cons, ih]

end Stencil
