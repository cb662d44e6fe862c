import Stencil.Routine.Basic

/-! # Progress of a group of routines

A step of a routine leads to one of its rests, and no routine has an endless chain of rests. So a
group of routines, of which at each step one goes on or leaves, comes to its end as well, in
whatever order they are taken. This is what lets a schedule of a group be defined by recursion.
-/

namespace Stencil.Routine

variable {σ α : Type}

/-- A routine that one step of another one leads to. -/
inductive Follows : Routine σ α → Routine σ α → Prop
  | pause (rest : Routine σ α) : Follows rest (.pause rest)
  | read (next : σ → Routine σ α) (state : σ) : Follows (next state) (.read next)
  | write (state : σ) (rest : Routine σ α) : Follows rest (.write state rest)

theorem acc_follows (r : Routine σ α) : Acc Follows r := by
  induction r with
  | done a => exact .intro _ fun _ step => by cases step
  | pause rest ih => exact .intro _ fun _ step => by cases step; exact ih
  | read next ih => exact .intro _ fun _ step => by cases step with | read _ s => exact ih s
  | write s rest ih => exact .intro _ fun _ step => by cases step; exact ih

/-- One routine of a group goes on by a step or leaves the group; the order does not matter. -/
inductive Progress : List (Routine σ α) → List (Routine σ α) → Prop
  | goesOn {r r' : Routine σ α} {others before after : List (Routine σ α)} (step : Follows r' r)
      (source : before.Perm (r :: others)) (target : after.Perm (r' :: others)) :
      Progress after before
  | leaves {r : Routine σ α} {others before after : List (Routine σ α)}
      (source : before.Perm (r :: others)) (target : after.Perm others) : Progress after before

theorem Progress.of_perm {before before' after : List (Routine σ α)} (same : before'.Perm before)
    (progress : Progress after before) : Progress after before' := by
  cases progress with
  | goesOn step source target => exact .goesOn step (same.trans source) target
  | leaves source target => exact .leaves (same.trans source) target

theorem acc_progress_of_perm {group group' : List (Routine σ α)} (same : group'.Perm group)
    (ends : Acc Progress group) : Acc Progress group' :=
  .intro _ fun _ progress => ends.inv (progress.of_perm same.symm)

/-- A routine of a group is the one at its head or one of the others. -/
theorem perm_cons_cases {r x : Routine σ α} {group others : List (Routine σ α)}
    (same : (r :: group).Perm (x :: others)) :
    x = r ∧ others.Perm group ∨
      ∃ rest, group.Perm (x :: rest) ∧ others.Perm (r :: rest) := by
  have found : x ∈ r :: group := same.mem_iff.2 List.mem_cons_self
  rcases List.mem_cons.1 found with rfl | inside
  · exact .inl ⟨rfl, same.cons_inv.symm⟩
  · obtain ⟨front, back, rfl⟩ := List.append_of_mem inside
    have moved : (front ++ x :: back).Perm (x :: (front ++ back)) := List.perm_middle
    refine .inr ⟨front ++ back, moved, ?_⟩
    have swapped : (x :: others).Perm (x :: r :: (front ++ back)) :=
      same.symm.trans ((moved.cons r).trans (.swap x r _))
    exact swapped.cons_inv

theorem acc_progress_cons {r : Routine σ α} (stops : Acc Follows r) :
    ∀ {group : List (Routine σ α)}, Acc Progress group → Acc Progress (r :: group) := by
  induction stops with
  | intro r _ shorter =>
    intro group ends
    induction ends with
    | intro group reachable smaller =>
      refine .intro _ fun after progress => ?_
      cases progress with
      | goesOn step source target =>
        rcases perm_cons_cases source with ⟨rfl, same⟩ | ⟨rest, inside, same⟩
        · exact acc_progress_of_perm (target.trans (same.cons _))
            (shorter _ step (.intro _ reachable))
        · exact acc_progress_of_perm
            (target.trans ((same.cons _).trans (.swap _ _ _)))
            (smaller _ (.goesOn step inside (.refl _)))
      | leaves source target =>
        rcases perm_cons_cases source with ⟨rfl, same⟩ | ⟨rest, inside, same⟩
        · exact acc_progress_of_perm (target.trans same) (.intro _ reachable)
        · exact acc_progress_of_perm (target.trans same) (smaller _ (.leaves inside (.refl _)))

theorem acc_progress (group : List (Routine σ α)) : Acc Progress group := by
  induction group with
  | nil =>
    refine .intro _ fun _ progress => ?_
    cases progress with
    | goesOn _ source _ => exact absurd source.length_eq (by simp)
    | leaves source _ => exact absurd source.length_eq (by simp)
  | cons r group ih => exact acc_progress_cons (acc_follows r) ih

theorem progress_wellFounded : WellFounded (Progress (σ := σ) (α := α)) := ⟨acc_progress⟩

end Stencil.Routine
