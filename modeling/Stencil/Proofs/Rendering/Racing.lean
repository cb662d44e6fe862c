import Stencil.Proofs.Rendering.LogOrder
import Stencil.Proofs.Rendering.Punctual

/-! # Siblings in a race

Each of some siblings pauses a number of times and then logs its label. Whichever way the group
goes on together, the labels stand in the log by the number of pauses, and in the order of the
siblings where these numbers are equal. In rounds a sibling that fails keeps those from the log that
would have come after it.
-/

namespace Stencil

open Routine (joinAll joinInRounds joinInTurns takeTurns Sibling Queue Outcomes)

/-- A sibling in a race: its entry, the pending values that are its own, and its result. -/
structure Racer (α : Type) extends Timed where
  own : Set Handle
  value : α

namespace Racer

variable {α : Type} {s t : Store} {x : Racer α} {k : Nat} {r : Attempt α}

/-- The attempt is what is left of the sibling after `k` pauses. -/
def At (x : Racer α) (k : Nat) (r : Attempt α) (s : Store) : Prop :=
  k ≤ x.ticks ∧ Punctual x.own (.ok x.value) (x.ticks - k)
    (fun i => if i + k = x.ticks then [x.label] else []) r s

/-- A racer is where it is after what others gain. -/
theorem At.of_gains (there : x.At k r s) {own : Set Handle} {lines : List String}
    (gains : s.Gains own lines t) (apart : Disjoint own x.own) : x.At k r t :=
  ⟨there.1, there.2.of_sameOn (gains.sameOn apart)⟩

/-- In its turn the sibling ends with its label in the log, or it pauses once more. -/
theorem At.turn (there : x.At k r s) :
    (k = x.ticks ∧ ∃ t, s.Gains x.own [x.label] t ∧ r.turn s = (.inl (.ok x.value), t)) ∨
      ∃ t rest, s.Gains x.own [] t ∧ r.turn s = (.inr rest, t) ∧ x.At (k + 1) rest t := by
  obtain ⟨bound, punctual⟩ := there
  cases left : x.ticks - k with
  | zero =>
    have now : k = x.ticks := Nat.le_antisymm bound (Nat.le_of_sub_eq_zero left)
    rw [left] at punctual
    obtain ⟨t, gains, ends⟩ := punctual s (.refl _ s)
    exact .inl ⟨now, t, by simpa [now] using gains, ends⟩
  | succ n =>
    rw [left] at punctual
    obtain ⟨t, rest, gains, pauses, goesOn⟩ := punctual s (.refl _ s)
    have early : k ≠ x.ticks := by omega
    refine .inr ⟨t, rest, by simpa [early] using gains, pauses, by omega, ?_⟩
    rw [show x.ticks - (k + 1) = n by omega]
    exact goesOn.congr fun i _ => if_congr (by omega) rfl rfl

end Racer

/-! ## In rounds -/

section

variable {α β : Type} {s : Store}

def entries (cast : List (Racer α × β)) : List Timed := cast.map (·.1.toTimed)

def shares (cast : List (Racer α × β)) : List (Set Handle) := cast.map (·.1.own)

def owned (cast : List (Racer α × β)) : Set Handle := {handle | ∃ own ∈ shares cast, handle ∈ own}

theorem owned_cons (member : Racer α × β) (cast : List (Racer α × β)) :
    owned (member :: cast) = member.1.own ∪ owned cast := by
  ext handle
  simp [owned, shares]

theorem disjoint_owned {cast : List (Racer α × β)} {own : Set Handle}
    (apart : ∀ own' ∈ shares cast, Disjoint own own') : Disjoint own (owned cast) := by
  rw [Set.disjoint_right]
  rintro handle ⟨own', member, belongs⟩
  exact Set.disjoint_right.mp (apart own' member) belongs

/-- A racer that starts is punctual. -/
theorem Racer.At.punctual {x : Racer α} {r : Attempt α} (start : x.At 0 r s) :
    Punctual x.own (.ok x.value) x.ticks (fun k => if k = x.ticks then [x.label] else []) r s :=
  start.2

/-- In rounds siblings are as punctual together as they are alone. -/
theorem joinInRounds_punctual {cast : List (Racer α × Attempt α)}
    (apart : (shares cast).Pairwise Disjoint) (start : ∀ member ∈ cast, member.1.At 0 member.2 s) :
    Punctual (owned cast) (.ok (cast.map (·.1.value))) (Timed.slowest (entries cast))
      (fun k => Timed.due k (entries cast)) (joinInRounds (cast.map Prod.snd)) s := by
  induction cast with
  | nil => exact .done _ _ s
  | cons member cast ih =>
    obtain ⟨first, others⟩ := List.forall_mem_cons.mp start
    obtain ⟨apartFirst, apartOthers⟩ := List.pairwise_cons.mp apart
    have both := first.punctual.both (disjoint_owned apartFirst) (ih apartOthers others)
      (fun k late => if_neg late.ne') fun k late => Timed.due_past late
    rw [owned_cons]
    refine (both.map fun result => result.map fun p => p.1 :: p.2).congr fun k _ => ?_
    exact (Timed.due_cons k _ _).symm

/-- In rounds a failure ends the group, and what would have come later is not logged: the siblings
before it have had their turn in that round, those behind it have not. -/
theorem joinInRounds_fails {before after : List (Racer α × Attempt α)} {own : Set Handle}
    {r : Attempt α} {delay : Nat} {e : Error}
    (apart : (shares before ++ own :: shares after).Pairwise Disjoint)
    (startBefore : ∀ member ∈ before, member.1.At 0 member.2 s)
    (startAfter : ∀ member ∈ after, member.1.At 0 member.2 s)
    (fails : Punctual own (.error e) delay (fun _ => []) r s) :
    Punctual (owned before ∪ (own ∪ owned after)) (.error e) delay
      (fun k => Timed.due k (entries before) ++
        if k < delay then Timed.due k (entries after) else [])
      (joinInRounds (before.map Prod.snd ++ r :: after.map Prod.snd)) s := by
  induction before with
  | nil =>
    obtain ⟨apartSelf, apartAfter⟩ := List.pairwise_cons.mp apart
    have others := joinInRounds_punctual apartAfter startAfter
    have both := fails.both_of_fails (disjoint_owned apartSelf) others fun k late =>
      Timed.due_past late
    refine (both.map fun result => result.map fun p => p.1 :: p.2).mono ?_
    exact Set.subset_union_right
  | cons member before ih =>
    obtain ⟨first, others⟩ := List.forall_mem_cons.mp startBefore
    have whole : (member.1.own :: (shares before ++ own :: shares after)).Pairwise Disjoint :=
      apart
    obtain ⟨apartFirst, apartOthers⟩ := List.pairwise_cons.mp whole
    have disjoint : Disjoint member.1.own (owned before ∪ (own ∪ owned after)) := by
      rw [List.forall_mem_append, List.forall_mem_cons] at apartFirst
      rw [Set.disjoint_union_right, Set.disjoint_union_right]
      exact ⟨disjoint_owned apartFirst.1, apartFirst.2.1, disjoint_owned apartFirst.2.2⟩
    have both := first.punctual.both_of_fails_second disjoint (ih apartOthers others)
      fun k late => if_neg late.ne'
    rw [owned_cons, Set.union_assoc]
    refine (both.map fun result => result.map fun p => p.1 :: p.2).congr fun k _ => ?_
    change _ ++ (_ ++ _) = Timed.due k (member.1.toTimed :: entries before) ++ _
    rw [Timed.due_cons, List.append_assoc]

/-! ## In turns -/

/-- A queue in the round after `k` pauses: those in front have their turn still before them, those
at the back behind them. All have ended within the rounds that follow. -/
structure Lined (k rounds : Nat) (front back : List (Racer α × Sibling Store Error α))
    (next : Sibling Store Error α) (others : Queue Store Error α) (s : Store) : Prop where
  queue : next :: others.siblings = (front ++ back).map Prod.snd
  before : ∀ member ∈ front, member.1.At k member.2.routine s
  behind : ∀ member ∈ back, member.1.At (k + 1) member.2.routine s
  apart : (shares (front ++ back)).Pairwise Disjoint
  bound : ∀ member ∈ front ++ back, member.1.ticks ≤ k + rounds

namespace Lined

variable {k rounds : Nat} {front back : List (Racer α × Sibling Store Error α)}
  {member : Racer α × Sibling Store Error α} {next : Sibling Store Error α}
  {others : Queue Store Error α} {t : Store} {outcomes : Outcomes Error α} {paused : Bool}

/-- When all have had their turn the next round begins. -/
theorem nextRound (lined : Lined k (rounds + 1) [] back next others s) :
    Lined (k + 1) rounds back [] next others s where
  queue := by simpa using lined.queue
  before := lined.behind
  behind _ inside := absurd inside List.not_mem_nil
  apart := by simpa using lined.apart
  bound member inside := by
    have := lined.bound member (by simpa using inside)
    omega

/-- The turn of one sibling is none of the others. -/
theorem untouched (lined : Lined k rounds (member :: front) back next others s)
    {lines : List String} (gains : s.Gains member.1.own lines t) :
    (∀ other ∈ front, other.1.At k other.2.routine t) ∧
      ∀ other ∈ back, other.1.At (k + 1) other.2.routine t := by
  have apart : ∀ own ∈ shares (front ++ back), Disjoint member.1.own own :=
    (List.pairwise_cons.mp lined.apart).1
  refine ⟨fun other inside => ?_, fun other inside => ?_⟩
  · refine (lined.before other (List.mem_cons_of_mem _ inside)).of_gains gains (apart _ ?_)
    exact List.mem_map_of_mem (List.mem_append_left _ inside)
  · refine (lined.behind other inside).of_gains gains (apart _ ?_)
    exact List.mem_map_of_mem (List.mem_append_right _ inside)

/-- A sibling that ends leaves the queue. -/
theorem leave (lined : Lined k rounds (member :: front) back next others s)
    (gains : s.Gains member.1.own [member.1.label] t)
    {next' : Sibling Store Error α} {others' : Queue Store Error α}
    (queue : next' :: others'.siblings = others.siblings) :
    Lined k rounds front back next' others' t where
  queue := queue.trans (List.cons.inj lined.queue).2
  before := (lined.untouched gains).1
  behind := (lined.untouched gains).2
  apart := (List.pairwise_cons.mp lined.apart).2
  bound other inside := lined.bound other (List.mem_cons_of_mem _ inside)

/-- A sibling that pauses goes to the back of the queue. -/
theorem rotate (lined : Lined k rounds (member :: front) back next others s)
    (gains : s.Gains member.1.own [] t) {rest : Attempt α} (goesOn : member.1.At (k + 1) rest t)
    {next' : Sibling Store Error α} {others' : Queue Store Error α}
    (queue : next' :: others'.siblings = others.siblings ++ [⟨next.place, rest⟩]) :
    Lined k rounds front (back ++ [(member.1, ⟨next.place, rest⟩)]) next' others' t where
  queue := by
    rw [queue, (List.cons.inj lined.queue).2]
    simp
  before := (lined.untouched gains).1
  behind := by
    rw [List.forall_mem_append, List.forall_mem_singleton]
    exact ⟨(lined.untouched gains).2, goesOn⟩
  apart := by
    have apart : ∀ own ∈ shares (front ++ back), Disjoint member.1.own own :=
      (List.pairwise_cons.mp lined.apart).1
    let paused : Sibling Store Error α := ⟨next.place, rest⟩
    have parts : shares (front ++ (back ++ [(member.1, paused)])) =
        shares (front ++ back) ++ [member.1.own] := by simp [shares]
    rw [parts, List.pairwise_append]
    refine ⟨(List.pairwise_cons.mp lined.apart).2, List.pairwise_singleton _ _, ?_⟩
    simpa using fun own inside => (apart own inside).symm
  bound other inside := by
    rw [← List.append_assoc, List.mem_append, List.mem_singleton] at inside
    rcases inside with inside | rfl
    · exact lined.bound other (List.mem_cons_of_mem _ inside)
    · exact lined.bound member List.mem_cons_self

/-- One after the other those in front log what is due in this round, and then the next begins. -/
theorem log_of_nextRound
    (after : ∀ {back : List (Racer α × Sibling Store Error α)} {next others s outcomes paused},
      Lined k rounds [] back next others s → Outcomes.failed outcomes = none →
        ((takeTurns next.place next.routine others outcomes paused).run s).2.log =
          s.log ++ Timed.dueFrom (k + 1) rounds (entries back))
    (lined : Lined k rounds front back next others s) (none : outcomes.failed = none) :
    ((takeTurns next.place next.routine others outcomes paused).run s).2.log =
      s.log ++ Timed.due k (entries front) ++
        Timed.dueFrom (k + 1) rounds (entries (back ++ front)) := by
  induction front generalizing back next others outcomes paused s with
  | nil =>
    rw [after lined none, List.append_nil]
    simp [entries, Timed.due]
  | cons member front ih =>
    obtain ⟨rfl, queue⟩ := List.cons.inj lined.queue
    have due : Timed.due k (entries (member :: front)) =
        (if k = member.1.ticks then [member.1.label] else []) ++ Timed.due k (entries front) :=
      Timed.due_cons ..
    rw [due]
    rcases (lined.before _ List.mem_cons_self).turn with
      ⟨now, t, gains, ends⟩ | ⟨t, rest, gains, pauses, goesOn⟩
    · obtain ⟨last, handsOn⟩ := Routine.run_takeTurns_of_ends ends none
      have gone : Timed.dueFrom (k + 1) rounds (entries (back ++ member :: front)) =
          Timed.dueFrom (k + 1) rounds (entries (back ++ front)) := by
        have early : member.1.toTimed.ticks < k + 1 := by omega
        simpa [entries] using Timed.dueFrom_of_lt early
      rw [if_pos now, gone]
      cases left : others.siblings with
      | nil =>
        have empty : front ++ back = [] := List.map_eq_nil_iff.mp (queue.symm.trans left)
        obtain ⟨rfl, rfl⟩ := List.append_eq_nil_iff.mp empty
        rw [last left, gains.log]
        simp [entries, Timed.due, Timed.dueFrom]
      | cons next' others' =>
        obtain ⟨queue', outcomes', same, none', run⟩ := handsOn next' others' left
        have lined' : Lined k rounds front back next' queue' t :=
          lined.leave gains (by rw [same, left])
        rw [run, ih lined' none', gains.log]
        simp
    · obtain ⟨next', others', paused', same, run⟩ := Routine.run_takeTurns_of_pauses pauses
      have early : k ≠ member.1.ticks := by
        have := goesOn.1
        omega
      rw [run, ih (lined.rotate gains goesOn same) none, gains.log, if_neg early]
      simp [entries]

/-- The group logs what is due in this round and in those that follow. -/
theorem log (lined : Lined k rounds front back next others s) (none : outcomes.failed = none) :
    ((takeTurns next.place next.routine others outcomes paused).run s).2.log =
      s.log ++ Timed.due k (entries front) ++
        Timed.dueFrom (k + 1) rounds (entries (back ++ front)) := by
  induction rounds generalizing k front back next others outcomes paused s with
  | zero =>
    refine log_of_nextRound (fun {back _ _ _ _ _} lined none => ?_) lined none
    -- Nobody is left: whoever paused would end after more pauses than there are rounds.
    cases back with
    | nil => exact absurd lined.queue (List.cons_ne_nil _ _)
    | cons member back =>
      have late := (lined.behind member List.mem_cons_self).1
      have bound := lined.bound member List.mem_cons_self
      omega
  | succ rounds ih =>
    refine log_of_nextRound (fun lined none => ?_) lined none
    rw [ih lined.nextRound none, List.nil_append, Timed.dueFrom_succ, List.append_assoc]

end Lined

/-- In turns siblings that all succeed log what is due, pause by pause. -/
theorem joinInTurns_log {cast : List (Racer α × Attempt α)}
    (apart : (shares cast).Pairwise Disjoint) (start : ∀ member ∈ cast, member.1.At 0 member.2 s) :
    ((joinInTurns (cast.map Prod.snd)).run s).2.log =
      s.log ++ Timed.dueFrom 0 (Timed.slowest (entries cast) + 1) (entries cast) := by
  let front := cast.mapIdx fun place member => (member.1, Sibling.mk place member.2)
  have siblings : (cast.map Prod.snd).mapIdx (fun place routine => Sibling.mk place routine) =
      front.map Prod.snd := by
    apply List.ext_getElem <;> simp [front]
  have sameEntries : entries front = entries cast := by
    apply List.ext_getElem <;> simp [front, entries]
  have sameShares : shares front = shares cast := by
    apply List.ext_getElem <;> simp [front, shares]
  unfold Routine.joinInTurns
  rw [siblings]
  cases placed : front with
  | nil =>
    rw [← sameEntries, placed]
    simp [entries, Timed.dueFrom, Timed.slowest, Timed.due, Routine.run]
  | cons member rest =>
    have lined : Lined 0 (Timed.slowest (entries cast)) front [] member.2
        ⟨rest.map Prod.snd, []⟩ s :=
      { queue := by simp [placed, Queue.siblings]
        before := by
          intro other inside
          obtain ⟨place, bound, rfl⟩ := List.mem_mapIdx.mp inside
          exact start _ (List.getElem_mem bound)
        behind _ inside := absurd inside List.not_mem_nil
        apart := by
          rw [List.append_nil, sameShares]
          exact apart
        bound := by
          intro other inside
          rw [List.append_nil] at inside
          rw [← sameEntries, Nat.zero_add]
          exact Timed.ticks_le_slowest (List.mem_map_of_mem inside) }
    have logged : ((takeTurns member.2.place member.2.routine ⟨rest.map Prod.snd, []⟩ .empty
        false).run s).2.log = _ := lined.log rfl
    rw [List.nil_append, sameEntries, List.append_assoc, ← Timed.dueFrom_succ] at logged
    exact logged

/-- Whichever way they go on together, siblings that all succeed log what is due, pause by pause. -/
theorem joinAll_log {cast : List (Racer α × Attempt α)}
    (apart : (shares cast).Pairwise Disjoint) (start : ∀ member ∈ cast, member.1.At 0 member.2 s) :
    ((joinAll (cast.map Prod.snd)).run s).2.log =
      s.log ++ Timed.dueFrom 0 (Timed.slowest (entries cast) + 1) (entries cast) := by
  unfold joinAll
  split
  · obtain ⟨t, run, gains⟩ := (joinInRounds_punctual apart start).run
    rw [run, gains.log]
    simp [Timed.dueFrom]
  · exact joinInTurns_log apart start

end

end Stencil
