import Mathlib.Data.List.Forall2
import Stencil.Proofs.Routine.Simulation
import Stencil.Routine.Turns

/-! # Groups that go the same way

Two groups whose members go the same way, one by one, go the same way as a whole, in rounds as in
turns: a schedule only looks at who pauses, who ends and who fails.
-/

namespace Stencil.Routine

variable {σ ε α α' β β' γ γ' : Type} {R : σ → σ → Prop} {V : α → α' → Prop} {W : β → β' → Prop}

/-- Two results that are related, or one and the same failure. -/
inductive Ended (V : α → α' → Prop) : Except ε α → Except ε α' → Prop
  | ok {a : α} {b : α'} (same : V a b) : Ended V (.ok a) (.ok b)
  | error (e : ε) : Ended V (.error e) (.error e)

theorem Ended.refl {V : α → α → Prop} (refl : ∀ a, V a a) (result : Except ε α) :
    Ended V result result := by
  cases result with
  | ok a => exact .ok (refl a)
  | error e => exact .error e

theorem Ended.eq {result result' : Except ε α} (same : Ended Eq result result') :
    result = result' := by
  cases same with
  | ok same => rw [same]
  | error e => rfl

theorem Ended.of_map {f : α → β} {result result' : Except ε α}
    (same : result.map f = result'.map f) : Ended (fun a b => f a = f b) result result' := by
  cases result with
  | ok a =>
    cases result' with
    | ok b => exact .ok (Except.ok.inj same)
    | error e => cases same
  | error e =>
    cases result' with
    | ok b => cases same
    | error e' =>
      cases same
      exact .error e

/-! ## In rounds -/

theorem Sim.secondTurn {X : γ → γ' → Prop}
    {resume : Routine σ (Except ε β) → Routine σ (Except ε γ)}
    {resume' : Routine σ (Except ε β') → Routine σ (Except ε γ')}
    {r : Routine σ (Except ε β)} {q : Routine σ (Except ε β')} {s t : σ}
    (second : Sim R (Ended W) r s q t)
    (resumed : ∀ {r q}, Similar R (Ended W) r q → Similar R (Ended X) (resume r) (resume' q)) :
    Sim R (Ended X) (secondTurn resume r) s (secondTurn resume' q) t := by
  induction second with
  | done same related =>
    cases same with
    | error e => exact .done (.error e) related
    | ok same => exact .pause related (resumed (.done (.ok same)))
  | pause related goesOn _ => exact .pause related (resumed goesOn)
  | readLeft _ ih => exact .readLeft ih
  | writeLeft _ ih => exact .writeLeft ih
  | readRight _ ih => exact .readRight ih
  | writeRight _ ih => exact .writeRight ih

theorem Sim.both {r : Routine σ (Except ε α)} {q : Routine σ (Except ε α')}
    {r' : Routine σ (Except ε β)} {q' : Routine σ (Except ε β')} {s t : σ}
    (first : Sim R (Ended V) r s q t) (second : Similar R (Ended W) r' q') :
    Sim R (Ended fun (x : α × β) (y : α' × β') => V x.1 y.1 ∧ W x.2 y.2) (both r r') s
      (both q q') t := by
  induction first generalizing r' q' with
  | done same related =>
    cases same with
    | error e => exact .done (.error e) related
    | ok same =>
      refine (second _ _ related).bind fun a b other => .done ?_
      cases other with
      | error e => exact .error e
      | ok other => exact .ok ⟨same, other⟩
  | pause related _ ih =>
    refine (second _ _ related).secondTurn ?_
    intro r' q' second s t related
    exact ih s t related second
  | readLeft _ ih => exact .readLeft (ih second)
  | writeLeft _ ih => exact .writeLeft (ih second)
  | readRight _ ih => exact .readRight (ih second)
  | writeRight _ ih => exact .writeRight (ih second)

/-- Groups of similar routines are similar in rounds. -/
theorem Similar.joinInRounds {group : List (Routine σ (Except ε α))}
    {group' : List (Routine σ (Except ε α'))}
    (alike : List.Forall₂ (Similar R (Ended V)) group group') :
    Similar R (Ended (List.Forall₂ V)) (joinInRounds group) (joinInRounds group') := by
  induction alike with
  | nil => exact .done (.ok .nil)
  | cons first _ ih =>
    apply Similar.bind
    · intro s t related
      exact (first s t related).both ih
    · intro a b same
      apply Similar.done
      cases same with
      | error e => exact .error e
      | ok same => exact .ok (.cons same.1 same.2)

/-! ## In turns -/

/-- Siblings at one place go the same way. -/
structure Sibling.Similar (R : σ → σ → Prop) (V : α → α' → Prop) (a : Sibling σ ε α)
    (b : Sibling σ ε α') : Prop where
  place : a.place = b.place
  routine : Routine.Similar R (Ended V) a.routine b.routine

/-- Queues with the same places whose siblings go the same way. -/
structure Queue.Similar (R : σ → σ → Prop) (V : α → α' → Prop) (a : Queue σ ε α)
    (b : Queue σ ε α') : Prop where
  front : List.Forall₂ (Sibling.Similar R V) a.front b.front
  back : List.Forall₂ (Sibling.Similar R V) a.back b.back

namespace Queue.Similar

variable {a : Queue σ ε α} {b : Queue σ ε α'}

theorem add (alike : Queue.Similar R V a b) {x : Sibling σ ε α} {y : Sibling σ ε α'}
    (last : Sibling.Similar R V x y) : Queue.Similar R V (a.add x) (b.add y) :=
  ⟨alike.front, .cons last alike.back⟩

theorem siblings (alike : Queue.Similar R V a b) :
    List.Forall₂ (Sibling.Similar R V) a.siblings b.siblings :=
  List.rel_append alike.front (List.rel_reverse alike.back)

theorem places (alike : Queue.Similar R V a b) :
    a.siblings.map (·.place) = b.siblings.map (·.place) := by
  rw [← List.forall₂_eq_eq_eq, List.forall₂_map_left_iff, List.forall₂_map_right_iff]
  exact alike.siblings.imp fun _ _ same => same.place

/-- Both queues are empty, or their next siblings go the same way, as do the others. -/
theorem next? (alike : Queue.Similar R V a b) :
    (a.next? = none ∧ b.next? = none) ∨ ∃ x y c d, a.next? = some (x, c) ∧
      b.next? = some (y, d) ∧ Sibling.Similar R V x y ∧ Queue.Similar R V c d := by
  obtain ⟨front, back⟩ := a
  obtain ⟨front', back'⟩ := b
  obtain ⟨inFront, inBack⟩ := alike
  cases inFront with
  | cons first rest => exact .inr ⟨_, _, _, _, rfl, rfl, first, rest, inBack⟩
  | nil =>
    have turned := List.rel_reverse inBack
    simp only at turned
    unfold Queue.next?
    generalize back.reverse = queue at turned ⊢
    generalize back'.reverse = queue' at turned ⊢
    cases turned with
    | nil => exact .inl ⟨rfl, rfl⟩
    | cons first rest => exact .inr ⟨_, _, _, _, rfl, rfl, first, rest, .nil⟩

end Queue.Similar

/-- The same places have ended with related results, and the same one has failed first. -/
structure Outcomes.Similar (V : α → α' → Prop) (a : Outcomes ε α) (b : Outcomes ε α') : Prop where
  results : List.Forall₂ (fun x y => x.1 = y.1 ∧ V x.2 y.2) a.results b.results
  failed : a.failed = b.failed

namespace Outcomes.Similar

theorem insert {place : Nat} {a : α} {b : α'} (same : V a b) {results : List (Nat × α)}
    {results' : List (Nat × α')}
    (alike : List.Forall₂ (fun x y => x.1 = y.1 ∧ V x.2 y.2) results results') :
    List.Forall₂ (fun x y => x.1 = y.1 ∧ V x.2 y.2) (Outcomes.insert place a results)
      (Outcomes.insert place b results') := by
  induction alike with
  | nil => exact .cons ⟨rfl, same⟩ .nil
  | @cons x y _ _ first rest ih =>
    obtain ⟨later, c⟩ := x
    obtain ⟨later', d⟩ := y
    obtain ⟨rfl, related⟩ := first
    unfold Outcomes.insert
    split
    · exact .cons ⟨rfl, related⟩ ih
    · exact .cons ⟨rfl, same⟩ (.cons ⟨rfl, related⟩ rest)

variable {outcomes : Outcomes ε α} {outcomes' : Outcomes ε α'}

theorem add (alike : Outcomes.Similar V outcomes outcomes') (place : Nat) {result : Except ε α}
    {result' : Except ε α'} (same : Ended V result result') :
    Outcomes.Similar V (outcomes.add place result) (outcomes'.add place result') := by
  cases same with
  | ok same => exact ⟨insert same alike.results, alike.failed⟩
  | error e =>
    refine ⟨alike.results, ?_⟩
    unfold Outcomes.add
    rw [alike.failed]

theorem inOrder (alike : Outcomes.Similar V outcomes outcomes') :
    List.Forall₂ V outcomes.inOrder outcomes'.inOrder := by
  refine List.rel_reverse ?_
  rw [List.forall₂_map_left_iff, List.forall₂_map_right_iff]
  exact alike.results.imp fun _ _ same => same.2

theorem failure? (alike : Outcomes.Similar V outcomes outcomes') {a : Queue σ ε α}
    {b : Queue σ ε α'} (left : Queue.Similar R V a b) :
    outcomes.failure? a = outcomes'.failure? b := by
  unfold Outcomes.failure?
  rw [alike.failed]
  split
  · rename_i place e _
    have byPlace {δ : Type} (queue : Queue σ ε δ) :
        (queue.siblings.all fun sibling => place < sibling.place) =
          (queue.siblings.map (·.place)).all (place < ·) := by
      rw [List.all_map]
      rfl
    rw [byPlace a, byPlace b, left.places]
  · rfl

end Outcomes.Similar

section Turns

variable {place : Nat} {waiting others : Queue σ ε α} {next : Sibling σ ε α}
  {outcomes : Outcomes ε α} {paused : Bool}

theorem takeTurns_read (proceed : σ → Routine σ (Except ε α)) :
    takeTurns place (read proceed) waiting outcomes paused =
      read fun s => takeTurns place (proceed s) waiting outcomes paused := by
  rw [takeTurns]

theorem takeTurns_write (s : σ) (rest : Routine σ (Except ε α)) :
    takeTurns place (write s rest) waiting outcomes paused =
      write s (takeTurns place rest waiting outcomes paused) := by
  rw [takeTurns]

theorem takeTurns_pause_alone (rest : Routine σ (Except ε α)) (alone : waiting.next? = none) :
    takeTurns place (pause rest) waiting outcomes paused =
      pause (takeTurns place rest waiting outcomes false) := by
  rw [takeTurns]
  split
  · rfl
  · simp_all

theorem takeTurns_pause (rest : Routine σ (Except ε α))
    (turn : waiting.next? = some (next, others)) :
    takeTurns place (pause rest) waiting outcomes paused =
      if paused then
        pause (takeTurns next.place next.routine (others.add ⟨place, rest⟩) outcomes false)
      else takeTurns next.place next.routine (others.add ⟨place, rest⟩) outcomes true := by
  rw [takeTurns]
  split
  · simp_all
  · rename_i turn'
    rw [turn] at turn'
    cases turn'
    rfl

/-- A sibling ends: the group has failed, has ended, or goes on with the next one. -/
theorem takeTurns_ended (result : Except ε α) :
    takeTurns place (done result) waiting outcomes paused =
      match (outcomes.add place result).failure? waiting with
      | some e => done (.error e)
      | none =>
        match waiting.next? with
        | none => done (.ok (outcomes.add place result).inOrder)
        | some (next, others) =>
          takeTurns next.place next.routine others (outcomes.add place result) false := by
  rw [takeTurns]
  cases (outcomes.add place result).failure? waiting with
  | some e => rfl
  | none =>
    dsimp only
    split <;> simp_all

end Turns

/-- What goes the same way at the front of two queues does so with the rest of the queues. The
induction is on the progress of the first group; a step of the second one alone leaves the first
where it is, and is taken by the induction on how the current siblings go the same way. -/
theorem Sim.takeTurns {place : Nat} {r : Routine σ (Except ε α)} {q : Routine σ (Except ε α')}
    {a : Queue σ ε α} {b : Queue σ ε α'} {outcomes : Outcomes ε α} {outcomes' : Outcomes ε α'}
    {paused : Bool} {s t : σ} (current : Sim R (Ended V) r s q t) (alike : Queue.Similar R V a b)
    (ended : Outcomes.Similar V outcomes outcomes') :
    Sim R (Ended (List.Forall₂ V)) (takeTurns place r a outcomes paused) s
      (takeTurns place q b outcomes' paused) t := by
  generalize whole : r :: a.routines = group
  induction group using progress_wellFounded.induction
    generalizing place r q a b outcomes outcomes' paused s t with
  | _ group smaller =>
  subst whole
  induction current with
  | done same related =>
    have results := ended.add place same
    rw [takeTurns_ended, takeTurns_ended, results.failure? alike]
    split
    · exact .done (.error _) related
    · rcases alike.next? with ⟨last, last'⟩ | ⟨x, y, c, d, turn, turn', next, others⟩
      · rw [last, last']
        exact .done (.ok results.inOrder) related
      · rw [turn, turn']
        dsimp only
        rw [next.place]
        refine smaller _ (.leaves (.refl _) ?_) (next.routine _ _ related) others results rfl
        rw [Queue.routines_of_next? turn]
  | @pause _ _ r q related goesOn _ =>
    rcases alike.next? with ⟨alone, alone'⟩ | ⟨x, y, c, d, turn, turn', next, others⟩
    · rw [takeTurns_pause_alone _ alone, takeTurns_pause_alone _ alone']
      apply Sim.pause related
      intro s t related
      exact smaller _ (.goesOn (.pause _) (.refl _) (.refl _)) (goesOn s t related) alike ended rfl
    · have back : Sibling.Similar R V ⟨place, r⟩ ⟨place, q⟩ := ⟨rfl, goesOn⟩
      have waiting := others.add back
      rw [takeTurns_pause _ turn, takeTurns_pause _ turn', next.place]
      split
      · apply Sim.pause related
        intro s t related
        exact smaller _ (progress_of_pause turn) (next.routine s t related) waiting ended rfl
      · exact smaller _ (progress_of_pause turn) (next.routine _ _ related) waiting ended rfl
  | readLeft rest _ =>
    rw [takeTurns_read]
    exact .readLeft (smaller _ (.goesOn (.read _ _) (.refl _) (.refl _)) rest alike ended rfl)
  | writeLeft rest _ =>
    rw [takeTurns_write]
    exact .writeLeft (smaller _ (.goesOn (.write _ _) (.refl _) (.refl _)) rest alike ended rfl)
  | readRight _ ih =>
    rw [takeTurns_read]
    exact .readRight (ih smaller)
  | writeRight _ ih =>
    rw [takeTurns_write]
    exact .writeRight (ih smaller)

/-- Groups of similar routines are similar in turns. -/
theorem Similar.joinInTurns {group : List (Routine σ (Except ε α))}
    {group' : List (Routine σ (Except ε α'))}
    (alike : List.Forall₂ (Similar R (Ended V)) group group') :
    Similar R (Ended (List.Forall₂ V)) (joinInTurns group) (joinInTurns group') := by
  have placed (first : Nat) : List.Forall₂ (Sibling.Similar R V)
      (group.mapIdx fun i routine => Sibling.mk (first + i) routine)
      (group'.mapIdx fun i routine => Sibling.mk (first + i) routine) := by
    induction alike generalizing first with
    | nil => exact .nil
    | cons head _ ih =>
      rw [List.mapIdx_cons, List.mapIdx_cons]
      apply List.Forall₂.cons ⟨rfl, head⟩
      simpa only [Nat.add_assoc, Nat.add_comm 1] using ih (first + 1)
  have siblings := placed 0
  simp only [Nat.zero_add] at siblings
  unfold Routine.joinInTurns
  generalize (group.mapIdx fun i routine => Sibling.mk i routine) = queue at siblings ⊢
  generalize (group'.mapIdx fun i routine => Sibling.mk i routine) = queue' at siblings ⊢
  cases siblings with
  | nil => exact .done (.ok .nil)
  | cons head rest =>
    intro s t related
    dsimp only
    rw [head.place]
    exact (head.routine s t related).takeTurns ⟨rest, .nil⟩ ⟨.nil, rfl⟩

/-- Groups whose members go the same way go the same way, whichever schedule they follow. -/
theorem Similar.joinAll {group : List (Routine σ (Except ε α))}
    {group' : List (Routine σ (Except ε α'))}
    (alike : List.Forall₂ (Similar R (Ended V)) group group') :
    Similar R (Ended (List.Forall₂ V)) (joinAll group) (joinAll group') := by
  unfold Routine.joinAll
  rw [alike.length_eq]
  split
  · exact Similar.joinInRounds alike
  · exact Similar.joinInTurns alike

end Stencil.Routine
