import Mathlib.Data.List.Forall2
import Stencil.Proofs.Routine.Outcomes
import Stencil.Proofs.Routine.Siblings

/-! # What a group can end with

A group succeeds only with a result of each of its siblings, in order, and fails only as one of them
does. This holds in rounds as in turns, so what is guaranteed of the siblings one by one is
guaranteed of the group, however long each of them pauses.
-/

namespace Stencil.Routine

variable {σ ε α β γ : Type} {I : σ → Prop}

/-- The end of a group whose siblings end as the `kinds` tell, in order. -/
def Joined (kinds : List (Except ε α → Prop)) : Except ε (List α) → Prop
  | .ok values => List.Forall₂ (fun value kind => kind (.ok value)) values kinds
  | .error e => ∃ kind ∈ kinds, kind (.error e)

/-! ## In rounds -/

/-- The end of two siblings. -/
def Paired (P : Except ε α → Prop) (Q : Except ε β → Prop) : Except ε (α × β) → Prop
  | .ok (a, b) => P (.ok a) ∧ Q (.ok b)
  | .error e => P (.error e) ∨ Q (.error e)

theorem Keeps.secondTurn {P : Except ε β → Prop} {Q : Except ε γ → Prop}
    {resume : Routine σ (Except ε β) → Routine σ (Except ε γ)} {q : Routine σ (Except ε β)} {s : σ}
    (second : Keeps I P q s) (failing : ∀ e, P (.error e) → Q (.error e))
    (resumed : ∀ {q}, Assured I P q → Assured I Q (resume q)) :
    Keeps I Q (secondTurn resume q) s := by
  induction second with
  | @done result _ fits kept =>
    cases result with
    | error e => exact .done (failing e fits) kept
    | ok b => exact .pause kept (resumed (.done fits))
  | pause kept goesOn _ => exact .pause kept (resumed goesOn)
  | read _ ih => exact .read ih
  | write _ ih => exact .write ih

theorem Keeps.both {P : Except ε α → Prop} {Q : Except ε β → Prop} {r : Routine σ (Except ε α)}
    {q : Routine σ (Except ε β)} {s : σ} (first : Keeps I P r s) (second : Assured I Q q) :
    Keeps I (Paired P Q) (both r q) s := by
  induction first generalizing q with
  | @done result _ fits kept =>
    cases result with
    | error e => exact .done (.inl fits) kept
    | ok a =>
      refine (second _ kept).bind fun result other => .done ?_
      cases result with
      | error e => exact .inr other
      | ok b => exact ⟨fits, other⟩
  | pause kept _ ih =>
    refine (second _ kept).secondTurn (fun _ => .inr) ?_
    intro q second s kept
    exact ih s kept second
  | read _ ih => exact .read (ih second)
  | write _ ih => exact .write (ih second)

/-- In rounds, a group ends as its members can. -/
theorem Assured.joinInRounds {kinds : List (Except ε α → Prop)}
    {group : List (Routine σ (Except ε α))} (each : List.Forall₂ (Assured I) kinds group) :
    Assured I (Joined kinds) (joinInRounds group) := by
  induction each with
  | nil => exact .done .nil
  | cons first _ ih =>
    refine Assured.bind (fun s kept => (first s kept).both ih) fun result pair => .done ?_
    cases result with
    | ok values => exact .cons pair.1 pair.2
    | error e =>
      rcases pair with failed | ⟨kind, member, failed⟩
      · exact ⟨_, List.mem_cons_self, failed⟩
      · exact ⟨kind, List.mem_cons_of_mem _ member, failed⟩

/-! ## In turns -/

/-- The siblings of a group in turns: those that go on are assured of their kinds, those that have
ended did so as their kinds tell, and while none has failed each place is among them once. -/
structure Turn (I : σ → Prop) (kinds : List (Except ε α → Prop)) (place : Nat)
    (waiting : Queue σ ε α) (outcomes : Outcomes ε α) : Prop where
  waits : ∀ sibling ∈ waiting.siblings, ∃ kind, kinds[sibling.place]? = some kind ∧
    Assured I kind sibling.routine
  ended : ∀ result ∈ outcomes.results, ∃ kind, kinds[result.1]? = some kind ∧ kind (.ok result.2)
  failed : ∀ place e, outcomes.failed = some (place, e) → ∃ kind ∈ kinds, kind (.error e)
  ordered : outcomes.results.Pairwise fun later earlier => earlier.1 ≤ later.1
  complete : outcomes.failed = none →
    (place :: (waiting.siblings.map Sibling.place ++ outcomes.results.map Prod.fst)).Perm
      (List.range kinds.length)

namespace Outcomes

theorem insert_perm (place : Nat) (a : α) (results : List (Nat × α)) :
    (insert place a results).Perm ((place, a) :: results) := by
  induction results with
  | nil => exact .refl _
  | cons result rest ih =>
    obtain ⟨later, b⟩ := result
    rw [insert]
    split
    · exact (ih.cons _).trans (.swap _ _ _)
    · exact .refl _

theorem pairwise_insert (place : Nat) (a : α) {results : List (Nat × α)}
    (ordered : results.Pairwise fun later earlier => earlier.1 ≤ later.1) :
    (insert place a results).Pairwise fun later earlier => earlier.1 ≤ later.1 := by
  induction results with
  | nil => exact List.pairwise_singleton _ _
  | cons result rest ih =>
    obtain ⟨later, b⟩ := result
    obtain ⟨first, others⟩ := List.pairwise_cons.mp ordered
    rw [insert]
    split
    · rename_i before
      refine List.pairwise_cons.mpr ⟨?_, ih others⟩
      intro other member
      rcases List.mem_cons.mp ((insert_perm place a rest).mem_iff.mp member) with rfl | inside
      · exact Nat.le_of_lt before
      · exact first other inside
    · rename_i notBefore
      refine List.pairwise_cons.mpr ⟨?_, ordered⟩
      intro other member
      rcases List.mem_cons.mp member with rfl | inside
      · exact Nat.not_lt.mp notBefore
      · exact Nat.le_trans (first other inside) (Nat.not_lt.mp notBefore)

end Outcomes

/-- Results at all places, in order, are as the kinds tell. -/
theorem forall₂_of_places {kinds : List (Except ε α → Prop)} {results : List (Nat × α)}
    (places : results.map Prod.fst = List.range kinds.length)
    (ended : ∀ r ∈ results, ∃ kind, kinds[r.1]? = some kind ∧ kind (.ok r.2)) :
    List.Forall₂ (fun value kind => kind (.ok value)) (results.map Prod.snd) kinds := by
  have length : results.length = kinds.length := by
    simpa using congrArg List.length places
  rw [List.forall₂_map_left_iff, List.forall₂_iff_get]
  refine ⟨length, fun i inside inside' => ?_⟩
  obtain ⟨kind, there, fits⟩ := ended results[i] (List.getElem_mem inside)
  have place : results[i].1 = i := by
    have here := List.getElem_of_eq places (by simpa using inside)
    simpa using here
  rw [place, List.getElem?_eq_getElem inside'] at there
  cases there
  exact fits

namespace Turn

variable {kinds : List (Except ε α → Prop)} {kind : Except ε α → Prop} {place : Nat}
  {waiting others : Queue σ ε α} {next : Sibling σ ε α} {outcomes : Outcomes ε α}

/-- The sibling whose turn it is has paused, and the next one takes its turn. -/
theorem rotate (turn : Turn I kinds place waiting outcomes)
    (there : kinds[place]? = some kind) {rest : Routine σ (Except ε α)}
    (goesOn : Assured I kind rest) (taken : waiting.next? = some (next, others)) :
    Turn I kinds next.place (others.add ⟨place, rest⟩) outcomes := by
  have split := Queue.siblings_of_next? taken
  constructor
  case waits =>
    intro sibling member
    rw [Queue.siblings_add] at member
    rcases List.mem_append.mp member with old | new
    · exact turn.waits sibling (split ▸ List.mem_cons_of_mem _ old)
    · rw [List.mem_singleton.mp new]
      exact ⟨kind, there, goesOn⟩
  case ended => exact turn.ended
  case failed => exact turn.failed
  case ordered => exact turn.ordered
  case complete =>
    intro none
    refine .trans ?_ (turn.complete none)
    rw [split, Queue.siblings_add, List.map_append, List.map_cons, List.map_cons, List.map_nil]
    have moved : (next.place :: (others.siblings.map Sibling.place ++ [place])).Perm
        (place :: next.place :: others.siblings.map Sibling.place) :=
      List.perm_append_singleton place (next.place :: others.siblings.map Sibling.place)
    exact moved.append_right _

/-- What came out of the siblings so far, with the end of one more. -/
theorem add (turn : Turn I kinds place waiting outcomes) (there : kinds[place]? = some kind)
    {result : Except ε α} (fits : kind result) :
    (∀ r ∈ (outcomes.add place result).results,
      ∃ kind, kinds[r.1]? = some kind ∧ kind (.ok r.2)) ∧
    (∀ place' e, (outcomes.add place result).failed = some (place', e) →
      ∃ kind ∈ kinds, kind (.error e)) ∧
    ((outcomes.add place result).results.Pairwise fun later earlier => earlier.1 ≤ later.1) ∧
    ((outcomes.add place result).failed = none →
      (waiting.siblings.map Sibling.place ++ (outcomes.add place result).results.map Prod.fst).Perm
        (List.range kinds.length)) := by
  cases result with
  | ok a =>
    refine ⟨?_, turn.failed, Outcomes.pairwise_insert place a turn.ordered, ?_⟩
    · intro r member
      rcases List.mem_cons.mp ((Outcomes.insert_perm place a _).mem_iff.mp member) with rfl | old
      · exact ⟨kind, there, fits⟩
      · exact turn.ended r old
    · intro none
      have inserted := (Outcomes.insert_perm place a outcomes.results).map Prod.fst
      exact ((inserted.append_left _).trans List.perm_middle).trans (turn.complete none)
  | error e =>
    refine ⟨turn.ended, ?_, turn.ordered, nofun⟩
    intro place' e' failed
    have first : Outcomes.first place e outcomes.failed = (place', e') := Option.some.inj failed
    unfold Outcomes.first at first
    split at first
    · rename_i earlier known before
      split at first
      · exact turn.failed place' e' (before.trans (congrArg some first))
      · cases first
        exact ⟨kind, List.mem_of_getElem? there, fits⟩
    · cases first
      exact ⟨kind, List.mem_of_getElem? there, fits⟩

/-- The sibling whose turn it is has ended, and the next one takes its turn. -/
theorem leave (turn : Turn I kinds place waiting outcomes) (there : kinds[place]? = some kind)
    {result : Except ε α} (fits : kind result) (taken : waiting.next? = some (next, others)) :
    Turn I kinds next.place others (outcomes.add place result) := by
  have split := Queue.siblings_of_next? taken
  obtain ⟨ended, failed, ordered, complete⟩ := turn.add there fits
  rw [split] at complete
  exact ⟨fun sibling member => turn.waits sibling (split ▸ List.mem_cons_of_mem _ member), ended,
    failed, ordered, complete⟩

/-- The last sibling has ended, and none has failed. -/
theorem last (turn : Turn I kinds place waiting outcomes) (there : kinds[place]? = some kind)
    {result : Except ε α} (fits : kind result) (alone : waiting.next? = none)
    (none : (outcomes.add place result).failed = none) :
    List.Forall₂ (fun value kind => kind (.ok value)) (outcomes.add place result).inOrder kinds := by
  obtain ⟨ended, _, ordered, complete⟩ := turn.add there fits
  have places := complete none
  rw [Queue.next?_eq_none_iff.mp alone, List.map_nil, List.nil_append] at places
  have sorted : ((outcomes.add place result).results.reverse.map Prod.fst).Pairwise (· ≤ ·) := by
    rw [List.pairwise_map, List.pairwise_reverse]
    exact ordered
  have inOrder : (outcomes.add place result).results.reverse.map Prod.fst =
      List.range kinds.length := by
    refine List.Perm.eq_of_pairwise (fun _ _ _ _ => Nat.le_antisymm) sorted List.pairwise_le_range ?_
    exact ((List.reverse_perm _).map _).trans places
  rw [Outcomes.inOrder, ← List.map_reverse]
  exact forall₂_of_places inOrder fun r member => ended r (List.mem_reverse.mp member)

end Turn

/-- A failure that is reported has been noted. -/
theorem Outcomes.failed_of_failure? {outcomes : Outcomes ε α} {left : Queue σ ε α} {e : ε}
    (failure : outcomes.failure? left = some e) : ∃ place, outcomes.failed = some (place, e) := by
  unfold failure? at failure
  split at failure
  · rename_i place known there
    split at failure
    · cases failure
      exact ⟨place, there⟩
    · cases failure
  · cases failure

theorem Outcomes.failed_of_alone {outcomes : Outcomes ε α} {left : Queue σ ε α}
    (going : outcomes.failure? left = none) (alone : left.next? = none) :
    outcomes.failed = none := by
  unfold failure? at going
  rw [Queue.next?_eq_none_iff.mp alone] at going
  split at going
  · simp at going
  · assumption

/-- What the siblings in their turns are assured of comes out of the group. The induction is on the
progress of the group. -/
theorem Keeps.takeTurns {kinds : List (Except ε α → Prop)} {kind : Except ε α → Prop} {place : Nat}
    {r : Routine σ (Except ε α)} {waiting : Queue σ ε α} {outcomes : Outcomes ε α} {paused : Bool}
    {s : σ} (current : Keeps I kind r s) (there : kinds[place]? = some kind)
    (turn : Turn I kinds place waiting outcomes) :
    Keeps I (Joined kinds) (takeTurns place r waiting outcomes paused) s := by
  generalize whole : r :: waiting.routines = group
  induction group using progress_wellFounded.induction
    generalizing place r waiting outcomes paused s kind with
  | _ group smaller =>
  subst whole
  cases current with
  | @done result _ fits kept =>
    rw [takeTurns_ended]
    cases failure : (outcomes.add place result).failure? waiting with
    | some e =>
      obtain ⟨_, failed⟩ := Outcomes.failed_of_failure? failure
      exact .done ((turn.add there fits).2.1 _ e failed) kept
    | none =>
      cases taken : waiting.next? with
      | none => exact .done (turn.last there fits taken (Outcomes.failed_of_alone failure taken)) kept
      | some taking =>
        obtain ⟨next, others⟩ := taking
        obtain ⟨kind', there', assured⟩ := turn.waits next
          (Queue.siblings_of_next? taken ▸ List.mem_cons_self)
        refine smaller _ (.leaves (.refl _) ?_) (assured s kept) there'
          (turn.leave there fits taken) rfl
        rw [Queue.routines_of_next? taken]
  | @pause rest _ kept goesOn =>
    cases taken : waiting.next? with
    | none =>
      rw [takeTurns_pause_alone _ taken]
      refine .pause kept fun s' kept' => ?_
      exact smaller _ (.goesOn (.pause _) (.refl _) (.refl _)) (goesOn s' kept') there turn rfl
    | some taking =>
      obtain ⟨next, others⟩ := taking
      obtain ⟨kind', there', assured⟩ := turn.waits next
        (Queue.siblings_of_next? taken ▸ List.mem_cons_self)
      have rotated := turn.rotate there goesOn taken
      rw [takeTurns_pause _ taken]
      split
      · refine .pause kept fun s' kept' => ?_
        exact smaller _ (progress_of_pause taken) (assured s' kept') there' rotated rfl
      · exact smaller _ (progress_of_pause taken) (assured s kept) there' rotated rfl
  | read rest =>
    rw [takeTurns_read]
    exact .read (smaller _ (.goesOn (.read _ _) (.refl _) (.refl _)) rest there turn rfl)
  | write rest =>
    rw [takeTurns_write]
    exact .write (smaller _ (.goesOn (.write _ _) (.refl _) (.refl _)) rest there turn rfl)

/-- The siblings of a group at their places, each assured of its kind. -/
theorem placed_assured {kinds : List (Except ε α → Prop)} {group : List (Routine σ (Except ε α))}
    (each : List.Forall₂ (Assured I) kinds group) {sibling : Sibling σ ε α}
    (member : sibling ∈ group.mapIdx fun place routine => Sibling.mk place routine) :
    ∃ kind, kinds[sibling.place]? = some kind ∧ Assured I kind sibling.routine := by
  obtain ⟨length, assured⟩ := List.forall₂_iff_get.mp each
  obtain ⟨i, inside, rfl⟩ := List.mem_mapIdx.mp member
  have inside' : i < kinds.length := length ▸ inside
  exact ⟨kinds[i], List.getElem?_eq_getElem inside', assured i inside' inside⟩

theorem places_mapIdx (group : List (Routine σ (Except ε α))) :
    (group.mapIdx fun place routine => Sibling.mk place routine).map Sibling.place =
      List.range group.length := by
  apply List.ext_getElem <;> simp

/-- In turns, a group ends as its members can. -/
theorem Assured.joinInTurns {kinds : List (Except ε α → Prop)}
    {group : List (Routine σ (Except ε α))} (each : List.Forall₂ (Assured I) kinds group) :
    Assured I (Joined kinds) (joinInTurns group) := by
  have assured := @placed_assured _ _ _ _ _ _ each
  have places := places_mapIdx group
  rw [← each.length_eq] at places
  unfold Routine.joinInTurns
  generalize (group.mapIdx fun place routine => Sibling.mk place routine) = siblings at *
  cases siblings with
  | nil =>
    have none : kinds = [] := by simpa using places.symm
    subst none
    exact .done .nil
  | cons first others =>
    obtain ⟨kind, there, goesOn⟩ := assured List.mem_cons_self
    have turn : Turn I kinds first.place ⟨others, []⟩ .empty := by
      constructor
      case waits =>
        intro sibling member
        exact assured (List.mem_cons_of_mem _ (by simpa [Queue.siblings] using member))
      case ended => rintro _ ⟨⟩
      case failed => rintro _ _ ⟨⟩
      case ordered => exact .nil
      case complete =>
        intro _
        rw [← places]
        simp [Queue.siblings, Outcomes.empty]
    exact fun s kept => (goesOn s kept).takeTurns there turn

/-! ## In either way -/

/-- A group is assured of what its siblings are assured of, whichever schedule it follows. -/
theorem Assured.joinAll {kinds : List (Except ε α → Prop)} {group : List (Routine σ (Except ε α))}
    (each : List.Forall₂ (Assured I) kinds group) : Assured I (Joined kinds) (joinAll group) := by
  unfold Routine.joinAll
  split
  · exact Assured.joinInRounds each
  · exact Assured.joinInTurns each

/-- A group of siblings that end can end only as they can. -/
theorem Assured.joinAll_outcome {group : List (Routine σ (Except ε α))}
    (ends : ∀ r ∈ group, Assured I (fun _ => True) r) :
    Assured I (Joined (group.map (Outcome I))) (Routine.joinAll group) := by
  apply Assured.joinAll
  rw [List.forall₂_map_left_iff, List.forall₂_same]
  exact fun r member => (ends r member).outcome

/-- Each result of a group is the result of one of the siblings. -/
theorem Joined.of_mem {items : List β} {kind : β → Except ε α → Prop} {values : List α}
    (joined : Joined (items.map kind) (.ok values)) {value : α} (member : value ∈ values) :
    ∃ item ∈ items, kind item (.ok value) := by
  rw [Joined, List.forall₂_map_right_iff] at joined
  induction joined with
  | nil => cases member
  | cons first _ ih =>
    rcases List.mem_cons.mp member with rfl | member
    · exact ⟨_, List.mem_cons_self, first⟩
    · obtain ⟨item, among, holds⟩ := ih member
      exact ⟨item, List.mem_cons_of_mem _ among, holds⟩

/-- A group fails as one of its members does. -/
theorem Joined.of_error {items : List β} {kind : β → Except ε α → Prop} {e : ε}
    (joined : Joined (items.map kind) (.error e)) : ∃ item ∈ items, kind item (.error e) := by
  obtain ⟨_, member, fails⟩ := joined
  obtain ⟨item, among, rfl⟩ := List.mem_map.mp member
  exact ⟨item, among, fails⟩

/-- What is told of the siblings by a part of their results is told of the group by those parts. -/
theorem Joined.toOption_bind_eq {f : β → Option γ} {g : α → Option γ} {items : List β}
    {result : Except ε (List α)}
    (joined : Joined (items.map fun item result => result.toOption.bind g = f item) result) :
    (result.toOption.bind fun values => values.mapM g) = items.mapM f := by
  cases result with
  | ok values =>
    rw [Joined, List.forall₂_map_right_iff] at joined
    change values.mapM g = items.mapM f
    induction joined with
    | nil => rfl
    | cons first _ ih =>
      rw [List.mapM_cons, List.mapM_cons, ← first, ← ih]
      rfl
  | error e =>
    obtain ⟨kind, member, fails⟩ := joined
    change none = items.mapM f
    induction items with
    | nil => cases member
    | cons first rest ih =>
      rw [List.mapM_cons]
      rcases List.mem_cons.mp member with rfl | member
      · rw [← fails]
        rfl
      · rw [← ih member]
        cases f first <;> rfl

/-- A group whose siblings end as a partial function tells of them ends as it does on all. -/
theorem Joined.toOption_eq {f : β → Option α} {items : List β} {result : Except ε (List α)}
    (joined : Joined (items.map fun item result => result.toOption = f item) result) :
    result.toOption = items.mapM f := by
  have parts : Joined (items.map fun item (result : Except ε α) =>
      result.toOption.bind some = f item) result := by simpa using joined
  have all (values : List α) : values.mapM some = some values := by
    induction values with
    | nil => rfl
    | cons value values ih => rw [List.mapM_cons, ih]; rfl
  rw [← parts.toOption_bind_eq]
  simp [all]

end Stencil.Routine
