import Mathlib.Data.List.Flatten
import Mathlib.Data.List.Nodup
import Mathlib.Data.Prod.Lex

/-! # The order of a log

Labels are logged pause by pause, and those that are logged after equally many pauses in the order
in which they stand. So the log has the order of the pairs of the two.
-/

namespace Stencil

/-- A label, and after how many pauses it is logged. -/
structure Timed where
  ticks : Nat
  label : String
  deriving DecidableEq, Repr

namespace Timed

/-- The labels that are logged after so many pauses. -/
def due (k : Nat) (entries : List Timed) : List String :=
  (entries.filter (·.ticks = k)).map (·.label)

/-- After how many pauses the last label is logged. -/
def slowest (entries : List Timed) : Nat := (entries.map ticks).foldr max 0

variable {entries others : List Timed} {entry : Timed} {k : Nat}

theorem due_cons (k : Nat) (entry : Timed) (entries : List Timed) :
    due k (entry :: entries) =
      (if k = entry.ticks then [entry.label] else []) ++ due k entries := by
  unfold due
  by_cases now : entry.ticks = k
  · rw [List.filter_cons_of_pos (by simpa using now), if_pos now.symm]
    rfl
  · rw [List.filter_cons_of_neg (by simpa using now), if_neg (Ne.symm now)]
    rfl

theorem due_append (k : Nat) (entries others : List Timed) :
    due k (entries ++ others) = due k entries ++ due k others := by
  simp [due]

theorem ticks_le_slowest (member : entry ∈ entries) : entry.ticks ≤ slowest entries := by
  induction entries with
  | nil => cases member
  | cons first rest ih =>
    change entry.ticks ≤ max first.ticks (slowest rest)
    rcases List.mem_cons.mp member with rfl | inside
    · exact Nat.le_max_left ..
    · exact (ih inside).trans (Nat.le_max_right ..)

/-- Nothing is logged after so many pauses when no entry says so. -/
theorem due_eq_nil (other : ∀ entry ∈ entries, entry.ticks ≠ k) : due k entries = [] := by
  rw [due, List.filter_eq_nil_iff.mpr (by simpa using other)]
  rfl

/-- The labels that are logged in some rounds from the one after `k` pauses on. -/
def dueFrom (k rounds : Nat) (entries : List Timed) : List String :=
  (List.range rounds).flatMap fun i => due (k + i) entries

/-- What is due in rounds is due in the first of them, and then in the others. -/
theorem dueFrom_succ (k rounds : Nat) (entries : List Timed) :
    dueFrom k (rounds + 1) entries = due k entries ++ dueFrom (k + 1) rounds entries := by
  unfold dueFrom
  rw [List.range_succ_eq_map, List.flatMap_cons, List.flatMap_map]
  simp only [Nat.add_zero, Nat.succ_eq_add_one, Nat.add_assoc, Nat.add_comm 1]

/-- An entry that is due earlier is not logged any more. -/
theorem dueFrom_of_lt {rounds : Nat} (early : entry.ticks < k) :
    dueFrom k rounds (entries ++ entry :: others) = dueFrom k rounds (entries ++ others) := by
  unfold dueFrom
  refine congrArg (List.flatMap · _) (funext fun i => ?_)
  rw [due_append, due_append, due_cons, if_neg (by omega), List.nil_append]

/-- Nothing is due when all entries are logged. -/
theorem due_past (late : slowest entries < k) : due k entries = [] :=
  due_eq_nil fun _ member => (Nat.lt_of_le_of_lt (ticks_le_slowest member) late).ne

/-! ## The order of what is due -/

/-- When the entry at a place is logged. -/
def ending (placed : Timed × Nat) : Nat ×ₗ Nat := toLex (placed.1.ticks, placed.2)

theorem ending_lt_iff {x : Timed × Nat} {ticks place : Nat} :
    ending x < toLex (ticks, place) ↔ x.1.ticks < ticks ∨ x.1.ticks = ticks ∧ x.2 < place :=
  Prod.Lex.toLex_lt_toLex

/-- Entries with their places, in the order in which they are logged. -/
def logged (rounds : Nat) (placed : List (Timed × Nat)) : List (Timed × Nat) :=
  (List.range rounds).flatMap fun k => placed.filter (·.1.ticks = k)

variable {rounds : Nat} {placed : List (Timed × Nat)}

theorem map_logged (rounds : Nat) (placed : List (Timed × Nat)) :
    (logged rounds placed).map (·.1.label) =
      (List.range rounds).flatMap fun k => due k (placed.map Prod.fst) := by
  rw [logged, List.map_flatMap]
  refine congrArg (List.flatMap · _) (funext fun k => ?_)
  simp [due, List.filter_map, Function.comp_def]

theorem mem_logged (bound : ∀ x ∈ placed, x.1.ticks < rounds) {x : Timed × Nat} :
    x ∈ logged rounds placed ↔ x ∈ placed := by
  simp only [logged, List.mem_flatMap, List.mem_range, List.mem_filter, decide_eq_true_eq]
  constructor
  · rintro ⟨k, -, inside, -⟩
    exact inside
  · exact fun inside => ⟨x.1.ticks, bound x inside, inside, rfl⟩

/-- What is logged stands in the order of the pauses, and of the places where these are equal. -/
theorem logged_pairwise (ascending : placed.Pairwise fun x y => x.2 < y.2) (rounds : Nat) :
    (logged rounds placed).Pairwise fun x y => ending x < ending y := by
  rw [logged, List.pairwise_flatMap]
  constructor
  · intro k _
    rw [List.pairwise_filter]
    refine ascending.imp fun {x y} less same same' => ending_lt_iff.mpr (.inr ⟨?_, less⟩)
    simp_all
  · refine List.pairwise_lt_range.imp fun {k l} less x inside y inside' => ?_
    simp only [List.mem_filter, decide_eq_true_eq] at inside inside'
    exact ending_lt_iff.mpr (.inl (by omega))

/-- In enough rounds every entry is logged once. -/
theorem logged_perm (ascending : placed.Pairwise fun x y => x.2 < y.2)
    (bound : ∀ x ∈ placed, x.1.ticks < rounds) : (logged rounds placed).Perm placed := by
  rw [List.perm_ext_iff_of_nodup]
  · exact fun x => mem_logged bound
  · exact (logged_pairwise ascending rounds).imp fun less => by rintro rfl; exact less.false
  · exact ascending.imp fun less => by rintro rfl; exact less.false

/-- The lines are the labels of the entries, by their pauses, and by their places where these are
equal. -/
def Logs (placed : List (Timed × Nat)) (lines : List String) : Prop :=
  ∃ order : List (Timed × Nat), order.Perm placed ∧
    (order.Pairwise fun x y => ending x < ending y) ∧ order.map (·.1.label) = lines

/-- There is one such order only. -/
theorem Logs.unique {lines lines' : List String} (logs : Logs placed lines)
    (logs' : Logs placed lines') : lines = lines' := by
  obtain ⟨order, perm, sorted, rfl⟩ := logs
  obtain ⟨order', perm', sorted', rfl⟩ := logs'
  have same : order = order' := (perm.trans perm'.symm).eq_of_pairwise
    (fun x y _ _ less greater => (less.asymm greater).elim) sorted sorted'
  rw [same]

/-- Entries are logged by their delays, and those of one delay by their places. -/
theorem logs_of_ascending (ascending : placed.Pairwise fun x y => x.2 < y.2)
    (bound : ∀ x ∈ placed, x.1.ticks < rounds) :
    Logs placed ((List.range rounds).flatMap fun k => due k (placed.map Prod.fst)) :=
  ⟨logged rounds placed, logged_perm ascending bound, logged_pairwise ascending rounds,
    map_logged rounds placed⟩

theorem zipIdx_ascending (entries : List Timed) (first : Nat) :
    (entries.zipIdx first).Pairwise fun x y => x.2 < y.2 := by
  rw [← List.pairwise_map (f := Prod.snd), List.zipIdx_map_snd]
  exact List.pairwise_lt_range'

/-- All entries are logged, in the order of their ends. -/
theorem logs_zipIdx (entries : List Timed) :
    Logs entries.zipIdx (dueFrom 0 (slowest entries + 1) entries) := by
  have bound : ∀ x ∈ entries.zipIdx, x.1.ticks < slowest entries + 1 := fun x inside =>
    Nat.lt_succ_of_le (ticks_le_slowest (List.fst_mem_of_mem_zipIdx inside))
  simpa [dueFrom] using logs_of_ascending (zipIdx_ascending entries 0) bound

/-- Where all entries that are due now are kept, or none of them, the labels that are due are those
of all entries, or none. -/
theorem due_filter {k : Nat} {keep : Timed × Nat → Bool} {p : Prop} [Decidable p]
    (same : ∀ x ∈ placed, x.1.ticks = k → (keep x = true ↔ p)) :
    due k ((placed.filter keep).map Prod.fst) = if p then due k (placed.map Prod.fst) else [] := by
  have kept : (placed.filter keep).filter (·.1.ticks = k) =
      if p then placed.filter (·.1.ticks = k) else [] := by
    rw [List.filter_filter]
    split
    · rename_i holds
      exact List.filter_congr fun x inside => by
        by_cases now : x.1.ticks = k
        · simp [now, (same x inside now).mpr holds]
        · simp [now]
    · rename_i fails
      refine List.filter_eq_nil_iff.mpr fun x inside => ?_
      simp only [Bool.and_eq_true, decide_eq_true_eq, not_and]
      exact fun now kept => fails ((same x inside now).mp kept)
  have labels := congrArg (List.map (·.1.label)) kept
  rw [apply_ite (List.map _)] at labels
  simpa [due, List.filter_map, Function.comp_def] using labels

/-- What is logged before one of the entries has ended: those before it have had their turn in that
round, those behind it have not. -/
theorem logs_until (before : List Timed) (last : Timed) (after : List Timed) :
    Logs ((before ++ last :: after).zipIdx.filter
        fun x => ending x < toLex (last.ticks, before.length))
      ((List.range (last.ticks + 1)).flatMap fun k =>
        due k before ++ if k < last.ticks then due k after else []) := by
  generalize keeping : (fun x : Timed × Nat =>
    decide (ending x < toLex (last.ticks, before.length))) = keep
  have sooner (x : Timed × Nat) : keep x = true ↔
      x.1.ticks < last.ticks ∨ x.1.ticks = last.ticks ∧ x.2 < before.length := by
    rw [← keeping, decide_eq_true_iff, ending_lt_iff]
  have bound : ∀ x ∈ (before ++ last :: after).zipIdx.filter keep, x.1.ticks < last.ticks + 1 := by
    intro x inside
    have := (sooner x).mp (List.mem_filter.mp inside).2
    omega
  have logs := logs_of_ascending ((zipIdx_ascending _ 0).filter keep) bound
  refine Eq.subst (List.flatMap_congr fun k within => ?_) logs
  have now : k ≤ last.ticks := Nat.le_of_lt_succ (List.mem_range.mp within)
  have early : due k ((before.zipIdx.filter keep).map Prod.fst) = due k before := by
    rw [due_filter (p := True), if_pos trivial, List.zipIdx_map_fst]
    intro x inside same
    have place := List.snd_lt_of_mem_zipIdx inside
    rw [sooner, iff_true]
    omega
  have self : keep (last, before.length) = false := by
    rw [Bool.eq_false_iff, Ne, sooner]
    simp
  have late : due k (((after.zipIdx (before.length + 1)).filter keep).map Prod.fst) =
      if k < last.ticks then due k after else [] := by
    rw [due_filter (p := k < last.ticks), List.zipIdx_map_fst]
    intro x inside same
    have place := List.le_snd_of_mem_zipIdx inside
    rw [sooner]
    omega
  rw [List.zipIdx_append, List.zipIdx_cons, List.filter_append, Nat.zero_add,
    List.filter_cons_of_neg (by simp [self]), List.map_append, due_append, early, late]

end Timed

end Stencil
