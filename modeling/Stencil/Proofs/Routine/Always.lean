import Stencil.Proofs.Routine.Joined

/-! # What a routine ends with on every branch

What others leave in the state decides how a routine goes on where it reads. A fact about each of
its ends, on every branch of every read, does not depend on the state at all, and so it can be used
inside the routine: two continuations that agree wherever the fact holds make the same routine.
-/

namespace Stencil.Routine

variable {σ ε α β γ : Type}

/-- Each end of the routine is as stated, whichever states it reads. -/
inductive Always (P : α → Prop) : Routine σ α → Prop
  | done {a : α} (fits : P a) : Always P (done a)
  | pause {r : Routine σ α} (rest : Always P r) : Always P (pause r)
  | read {next : σ → Routine σ α} (rest : ∀ s, Always P (next s)) : Always P (read next)
  | write {r : Routine σ α} {s : σ} (rest : Always P r) : Always P (write s r)

/-- What succeeded is as stated. -/
def OnSuccess (P : α → Prop) (result : Except ε α) : Prop := ∀ a, result = .ok a → P a

namespace OnSuccess

variable {P : α → Prop}

theorem ok {a : α} (holds : P a) : OnSuccess P (.ok a : Except ε α) := fun _ same =>
  Except.ok.inj same ▸ holds

theorem error (e : ε) : OnSuccess P (.error e) := nofun

end OnSuccess

namespace Always

variable {P : α → Prop} {Q : β → Prop}

theorem trivial (r : Routine σ α) : Always (fun _ => True) r := by
  induction r with
  | done a => exact .done True.intro
  | pause r ih => exact .pause ih
  | read next ih => exact .read ih
  | write s r ih => exact .write ih

theorem bind {r : Routine σ α} {f : α → Routine σ β} (first : Always P r)
    (next : ∀ a, P a → Always Q (f a)) : Always Q (r.bind f) := by
  induction first with
  | done fits => exact next _ fits
  | pause _ ih => exact .pause ih
  | read _ ih => exact .read ih
  | write _ ih => exact .write ih

/-- A routine goes on the same way with continuations that agree on all it can end with. -/
theorem bind_congr {r : Routine σ α} {f g : α → Routine σ β} (always : Always P r)
    (agree : ∀ a, P a → f a = g a) : r.bind f = r.bind g := by
  induction always with
  | done fits => exact agree _ fits
  | pause _ ih => exact congrArg Routine.pause ih
  | read _ ih => exact congrArg Routine.read (funext ih)
  | write _ ih => exact congrArg (Routine.write _) ih

/-! ## In rounds -/

theorem secondTurn {P : Except ε β → Prop} {Q : Except ε γ → Prop}
    {resume : Routine σ (Except ε β) → Routine σ (Except ε γ)} {q : Routine σ (Except ε β)}
    (second : Always P q) (failing : ∀ e, Q (.error e))
    (resumed : ∀ {q}, Always P q → Always Q (resume q)) : Always Q (secondTurn resume q) := by
  induction second with
  | @done result fits =>
    cases result with
    | error e => exact .done (failing e)
    | ok b => exact .pause (resumed (.done fits))
  | pause rest _ => exact .pause (resumed rest)
  | read _ ih => exact .read ih
  | write _ ih => exact .write ih

theorem both {r : Routine σ (Except ε α)} {q : Routine σ (Except ε β)}
    (first : Always (OnSuccess P) r) (second : Always (OnSuccess Q) q) :
    Always (OnSuccess fun pair => P pair.1 ∧ Q pair.2) (both r q) := by
  induction first generalizing q with
  | @done result fits =>
    cases result with
    | error e => exact .done (.error e)
    | ok a =>
      refine second.bind fun result other => .done ?_
      cases result with
      | error e => exact .error e
      | ok b => exact .ok ⟨fits a rfl, other b rfl⟩
  | pause _ ih => exact second.secondTurn .error ih
  | read _ ih => exact .read fun s => ih s second
  | write _ ih => exact .write (ih second)

/-- In rounds, what holds of every member's values holds of all the values. -/
theorem joinInRounds {group : List (Routine σ (Except ε α))}
    (each : ∀ r ∈ group, Always (OnSuccess P) r) :
    Always (OnSuccess fun values => ∀ value ∈ values, P value) (joinInRounds group) := by
  induction group with
  | nil => exact .done (.ok nofun)
  | cons first others ih =>
    obtain ⟨front, rest⟩ := List.forall_mem_cons.mp each
    refine (front.both (ih rest)).bind fun result pair => .done ?_
    cases result with
    | error e => exact .error e
    | ok values => exact .ok (List.forall_mem_cons.mpr (pair values rfl))

/-! ## In turns -/

/-- What the siblings in their turns always end with comes out of the group. The induction is on the
progress of the group. -/
theorem takeTurns {place : Nat} {r : Routine σ (Except ε α)} {waiting : Queue σ ε α}
    {outcomes : Outcomes ε α} {paused : Bool} (current : Always (OnSuccess P) r)
    (waits : ∀ sibling ∈ waiting.siblings, Always (OnSuccess P) sibling.routine)
    (ended : ∀ result ∈ outcomes.results, P result.2) :
    Always (OnSuccess fun values => ∀ value ∈ values, P value)
      (takeTurns place r waiting outcomes paused) := by
  generalize whole : r :: waiting.routines = group
  induction group using progress_wellFounded.induction
    generalizing place r waiting outcomes paused with
  | _ group smaller =>
  subst whole
  cases current with
  | @done result fits =>
    have added : ∀ r ∈ (outcomes.add place result).results, P r.2 := by
      cases result with
      | error e => exact ended
      | ok a =>
        intro r member
        rcases List.mem_cons.mp ((Outcomes.insert_perm place a _).mem_iff.mp member) with rfl | old
        · exact fits a rfl
        · exact ended r old
    rw [takeTurns_ended]
    cases (outcomes.add place result).failure? waiting with
    | some e => exact .done (.error e)
    | none =>
      cases taken : waiting.next? with
      | none =>
        refine .done (.ok fun value member => ?_)
        rw [Outcomes.inOrder, List.mem_reverse] at member
        obtain ⟨r, among, rfl⟩ := List.mem_map.mp member
        exact added r among
      | some taking =>
        obtain ⟨next, others⟩ := taking
        have split := Queue.siblings_of_next? taken
        obtain ⟨front, rest⟩ := List.forall_mem_cons.mp (split ▸ waits)
        refine smaller _ (.leaves (.refl _) ?_) front rest added rfl
        rw [Queue.routines_of_next? taken]
  | @pause r rest =>
    cases taken : waiting.next? with
    | none =>
      rw [takeTurns_pause_alone _ taken]
      exact .pause (smaller _ (.goesOn (.pause _) (.refl _) (.refl _)) rest waits ended rfl)
    | some taking =>
      obtain ⟨next, others⟩ := taking
      have split := Queue.siblings_of_next? taken
      obtain ⟨front, back⟩ := List.forall_mem_cons.mp (split ▸ waits)
      have rotated : ∀ sibling ∈ (others.add ⟨place, r⟩).siblings,
          Always (OnSuccess P) sibling.routine := by
        rw [Queue.siblings_add]
        exact List.forall_mem_append.mpr ⟨back, List.forall_mem_singleton.mpr rest⟩
      rw [takeTurns_pause _ taken]
      split
      · exact .pause (smaller _ (progress_of_pause taken) front rotated ended rfl)
      · exact smaller _ (progress_of_pause taken) front rotated ended rfl
  | read rest =>
    rw [takeTurns_read]
    refine .read fun s => ?_
    exact smaller _ (.goesOn (.read _ s) (.refl _) (.refl _)) (rest s) waits ended rfl
  | write rest =>
    rw [takeTurns_write]
    exact .write (smaller _ (.goesOn (.write _ _) (.refl _) (.refl _)) rest waits ended rfl)

/-- In turns, what holds of every member's values holds of all the values. -/
theorem joinInTurns {group : List (Routine σ (Except ε α))}
    (each : ∀ r ∈ group, Always (OnSuccess P) r) :
    Always (OnSuccess fun values => ∀ value ∈ values, P value) (joinInTurns group) := by
  have placed : ∀ sibling ∈ group.mapIdx fun place routine => Sibling.mk place routine,
      Always (OnSuccess P) sibling.routine := by
    intro sibling member
    obtain ⟨i, inside, rfl⟩ := List.mem_mapIdx.mp member
    exact each _ (List.getElem_mem inside)
  unfold Routine.joinInTurns
  generalize (group.mapIdx fun place routine => Sibling.mk place routine) = siblings at *
  cases siblings with
  | nil => exact .done (.ok nofun)
  | cons first others =>
    obtain ⟨front, rest⟩ := List.forall_mem_cons.mp placed
    refine takeTurns front ?_ nofun
    rwa [Queue.siblings, List.reverse_nil, List.append_nil]

/-! ## In either way -/

/-- A group succeeds only with values that its siblings can succeed with. -/
theorem joinAll {group : List (Routine σ (Except ε α))}
    (each : ∀ r ∈ group, Always (OnSuccess P) r) :
    Always (OnSuccess fun values => ∀ value ∈ values, P value) (joinAll group) := by
  unfold Routine.joinAll
  split
  · exact joinInRounds each
  · exact joinInTurns each

end Always

end Stencil.Routine
