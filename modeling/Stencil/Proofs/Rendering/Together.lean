import Stencil.Proofs.Rendering.Items
import Stencil.Proofs.Rendering.Racing
import Stencil.Proofs.Rendering.Suspending

/-! # Siblings that suspend

The items of a loop go on together, and so do the values that the tags of a template defer. Whoever
suspends most often is logged last, wherever it stands, while the text keeps the order of the
template.
-/

namespace Stencil

open Evaluation (Gives)
open Routine (Assured joinAll joinInRounds)

variable {s t : Store}

theorem ok_of_toOption {ε α : Type} {result : Except ε α} {a : α}
    (given : result.toOption = some a) : result = .ok a := by
  cases result with
  | error e => cases given
  | ok b => exact congrArg Except.ok (Option.some.inj given)

/-! ## Pending values in a race -/

namespace Timed

open Deferral (values)

/-- Pending values, the handle of each of which is its own. -/
def pending (first : Nat) (entries : List Timed) : List (Racer Value × Attempt Value) :=
  (entries.zipIdx first).map fun x =>
    ({ toTimed := x.1, own := {.made x.2}, value := .string x.1.label },
      (x.1.deferral.value x.2).resolve)

variable {entries : List Timed} {first : Nat}

theorem entries_pending (first : Nat) (entries : List Timed) :
    Stencil.entries (pending first entries) = entries := by
  simp [Stencil.entries, pending, Function.comp_def]

theorem shares_pending (first : Nat) (entries : List Timed) :
    shares (pending first entries) = (entries.zipIdx first).map fun x => {.made x.2} := by
  simp [shares, pending, Function.comp_def]

/-- Different values have different handles. -/
theorem handles_pairwise (first : Nat) (entries : List Timed) :
    ((entries.zipIdx first).map fun x => ({.made x.2} : Set Handle)).Pairwise Disjoint := by
  rw [List.pairwise_map]
  refine (zipIdx_ascending entries first).imp fun less => ?_
  rw [Set.disjoint_singleton]
  exact fun same => less.ne (Handle.made.inj same)

theorem start_pending (fresh : ∀ n, first ≤ n → s.progressOf (.made n) = ⟨0, false⟩) :
    ∀ member ∈ pending first entries, member.1.At 0 member.2 s := by
  intro member inside
  obtain ⟨⟨entry, n⟩, placed, rfl⟩ := List.mem_map.mp inside
  refine ⟨Nat.zero_le _, ?_⟩
  have settled : ∀ v, entry.deferral.outcome = .ok v → v.Settled := by
    rintro _ ⟨⟩
    exact Value.settled_string _
  exact Deferral.punctual settled (fresh n (List.le_snd_of_mem_zipIdx placed))

theorem values_eq (first : Nat) (entries : List Timed) : values first (entries.map deferral) =
    (entries.zipIdx first).map fun x => x.1.deferral.value x.2 := by
  simp [Deferral.values, List.zipIdx_map, Function.comp_def]

theorem resolveItems_values (first : Nat) (entries : List Timed) :
    Value.resolveItems (values first (entries.map deferral)) =
      (pending first entries).map Prod.snd := by
  rw [Value.resolveItems_eq_map, values_eq]
  simp [pending, Function.comp_def]

theorem printed_values (first : Nat) (entries : List Timed) :
    (Value.array (values first (entries.map deferral))).printed? =
      some (String.join (entries.map (·.label))) := by
  have labels : entries.map (·.label) = (entries.zipIdx first).map (·.1.label) := by
    conv_lhs => rw [← List.zipIdx_map_fst first entries, List.map_map]
    rfl
  have each : (values first (entries.map deferral)).mapM Value.printed? =
      some (entries.map (·.label)) := by
    rw [values_eq, labels, List.mapM_map, mapM_eq_some_iff, List.forall₂_map_right_iff,
      List.forall₂_same]
    exact fun _ _ => rfl
  rw [Value.printed?_array, each]
  rfl

/-- Pending values spell their labels in order, and log them in the order of their ends. -/
theorem spell_values {nodes : List Node} (fits : entries.length = nodes.length)
    (fresh : ∀ n, first ≤ n → s.progressOf (.made n) = ⟨0, false⟩) :
    ∃ t, (spell nodes (values first (entries.map deferral))).run s =
        (.ok (String.join (entries.map (·.label))), t) ∧
      t.log = s.log ++ dueFrom 0 (slowest entries + 1) entries := by
  have apart : (shares (pending first entries)).Pairwise Disjoint := by
    rw [shares_pending]
    exact handles_pairwise first entries
  have logged := joinAll_log apart (start_pending fresh)
  have length : (values first (entries.map deferral)).length = nodes.length := by
    rw [values_eq, List.length_map, List.length_zipIdx, fits]
  have text := (spell_assured Store.lasting_true nodes (values first (entries.map deferral)) s
    trivial).run.1
  rw [spelled?_eq_printed? length, printed_values] at text
  refine ⟨_, Prod.ext (ok_of_toOption text) rfl, ?_⟩
  rw [spell_eq_bind, Routine.run_bind, resolveItems_values]
  rw [entries_pending] at logged
  exact logged

/-- When in rounds one of the values fails instead, so do all together, and those are logged that
end before it. -/
theorem spell_values_fails {before after : List Timed} {last : Timed} {e : Error}
    (nodes : List Node) (fresh : ∀ n, first ≤ n → s.progressOf (.made n) = ⟨0, false⟩)
    (rounds : ∀ group : List (Attempt Value), group.length = (before ++ last :: after).length →
      joinAll group = joinInRounds group) :
    ∃ t, (spell nodes (values first
        (before.map deferral ++ ⟨last.ticks, none, .error e⟩ :: after.map deferral))).run s =
          (.error e, t) ∧
      t.log = s.log ++ (List.range (last.ticks + 1)).flatMap fun k =>
        due k before ++ if k < last.ticks then due k after else [] := by
  let own : Set Handle := {.made (first + before.length)}
  have apart : (shares (pending first before) ++
      own :: shares (pending (first + before.length + 1) after)).Pairwise Disjoint := by
    have whole := handles_pairwise first (before ++ last :: after)
    rw [List.zipIdx_append, List.zipIdx_cons, List.map_append, List.map_cons] at whole
    rw [shares_pending, shares_pending]
    exact whole
  have fails : Punctual own (.error e) last.ticks (fun _ => [])
      (Deferral.value ⟨last.ticks, none, .error e⟩ (first + before.length)).resolve s :=
    (Deferral.punctual (d := ⟨last.ticks, none, .error e⟩) (fun _ => nofun)
      (fresh _ (Nat.le_add_right ..))).congr fun k _ => ite_self _
  have attempts : Value.resolveItems (values first
      (before.map deferral ++ ⟨last.ticks, none, .error e⟩ :: after.map deferral)) =
      (pending first before).map Prod.snd ++
        (Deferral.value ⟨last.ticks, none, .error e⟩ (first + before.length)).resolve ::
          (pending (first + before.length + 1) after).map Prod.snd := by
    rw [← resolveItems_values, ← resolveItems_values, Value.resolveItems_eq_map,
      Value.resolveItems_eq_map, Value.resolveItems_eq_map, ← List.map_cons, ← List.map_append]
    simp [Deferral.values, List.zipIdx_append, List.zipIdx_cons]
  have later : ∀ n, first + before.length + 1 ≤ n → s.progressOf (.made n) = ⟨0, false⟩ :=
    fun n bound => fresh n (by omega)
  obtain ⟨t, run, gains⟩ := (joinInRounds_fails apart (start_pending fresh) (start_pending later)
    fails).run
  refine ⟨t, ?_, ?_⟩
  · rw [spell_eq_bind, Routine.run_bind, attempts, rounds _ (by simp [pending]), run]
    rfl
  · rw [gains.log, entries_pending, entries_pending]

end Timed

/-! ## Suspended items in a race -/

section

variable {entries : List Timed}

/-- Suspended siblings give their labels in order and log each when it is due. -/
theorem joinAll_suspended (entries : List Timed) (s : Store) :
    ∃ t, (joinAll (entries.map Timed.suspended)).run s =
        (.ok (entries.map fun entry => [.string entry.label]), t) ∧
      t.log = s.log ++ Timed.dueFrom 0 (Timed.slowest entries + 1) entries := by
  let cast : List (Racer (List Value) × Attempt (List Value)) := entries.map fun entry =>
    ({ toTimed := entry, own := ∅, value := [.string entry.label] }, entry.suspended)
  have same : Stencil.entries cast = entries := by simp [Stencil.entries, cast, Function.comp_def]
  have apart : (shares cast).Pairwise Disjoint := by
    rw [shares, List.map_map, List.pairwise_map]
    exact List.pairwise_of_forall fun _ _ => Set.disjoint_empty _
  have start : ∀ member ∈ cast, member.1.At 0 member.2 s := by
    intro member inside
    obtain ⟨entry, -, rfl⟩ := List.mem_map.mp inside
    exact ⟨Nat.zero_le _, punctual_suspend _ _ _ s⟩
  have logged := joinAll_log apart start
  rw [same] at logged
  have result : Assured (fun _ => True)
      (fun result => result.toOption = some (entries.map fun entry => [Value.string entry.label]))
      (joinAll (entries.map Timed.suspended)) := by
    have each : entries.mapM (fun entry => some [Value.string entry.label]) =
        some (entries.map fun entry => [Value.string entry.label]) := by
      rw [mapM_eq_some_iff, List.forall₂_map_right_iff, List.forall₂_same]
      exact fun _ _ => rfl
    rw [← each]
    refine (Assured.joinAll ?_).mono fun _ => Routine.Joined.toOption_eq
    rw [List.forall₂_map_left_iff, List.forall₂_map_right_iff, List.forall₂_same]
    exact fun entry _ => (Assured.free _).bind fun _ _ _ _ => .read (.write (.done rfl trivial))
  have attempts : entries.map Timed.suspended = cast.map Prod.snd := by
    simp [cast, Function.comp_def]
  refine ⟨_, Prod.ext (ok_of_toOption (result s trivial).run.1) rfl, ?_⟩
  rw [attempts]
  exact logged

/-- The labels of the items are put together at once. -/
theorem spell_blocks (node : Node) (entries : List Timed) :
    spell [node] [.array ((entries.map fun entry => [Value.string entry.label]).map .array)] =
      .done (.ok (String.join (entries.map (·.label)))) := by
  generalize blocked :
    (entries.map fun entry => [Value.string entry.label]).map Value.array = blocks
  have settled : (Value.array blocks).Settled := by
    refine Value.settled_of_whole (Value.whole_array.mpr fun block inside => ?_)
    rw [← blocked, List.map_map] at inside
    obtain ⟨entry, -, rfl⟩ := List.mem_map.mp inside
    rfl
  have atOnce : spell [node] [.array blocks] = .done (flattenNodes [node] [.array blocks]) := by
    rw [spell_eq_bind, Value.resolveItems_of_settled (by simpa using settled), Routine.joinAll_done]
    rfl
  have text := (spell_assured Store.lasting_true [node] [.array blocks] .empty trivial).run.1
  have printed : blocks.mapM Value.printed? = some (entries.map (·.label)) := by
    rw [← blocked, List.map_map, List.mapM_map, mapM_eq_some_iff, List.forall₂_map_right_iff,
      List.forall₂_same]
    intro entry _
    change (Value.array [.string entry.label]).printed? = _
    rw [Value.printed?_array]
    change some (String.join [entry.label]) = _
    simp
  rw [atOnce, spelled?_singleton, Value.printed?_array, printed] at text
  rw [atOnce]
  exact congrArg Routine.done (ok_of_toOption text)

/-- A loop whose body suspends goes on with all of its items together. -/
theorem Scope.serialize_suspended {scope : Scope} {data named : Value} {items : List Value}
    {source place : Source} {key listing : Node} {parameters : List Node} {name : String}
    (waits : scope.tags.find? "wait" = some Tags.wait)
    (keyed : Gives (resolved (scope.render key)) data named) (text : named.asString = some name)
    (listed : Gives (resolved (scope.render listing)) data (.array items))
    (asked : List.Forall₂ (scope.Asks parameters) (itemStarts (data.asMap.getD []) name items)
      entries) (s : Store) :
    ∃ t, ((scope.serialize
        [.loop source key listing [.tag place "wait" parameters none]]).runOn data).run s =
          ((.ok (String.join (entries.map (·.label))), data), t) ∧
      t.log = s.log ++ Timed.dueFrom 0 (Timed.slowest entries + 1) entries := by
  have attempts : (itemStarts (data.asMap.getD []) name items).map
      (scope.renderAll [.tag place "wait" parameters none]).attemptOn =
        entries.map Timed.suspended := by
    rw [← List.forall₂_eq_eq_eq, List.forall₂_map_left_iff, List.forall₂_map_right_iff]
    exact asked.imp fun _ _ => wait_attemptOn waits
  obtain ⟨t, run, logged⟩ := joinAll_suspended entries s
  refine ⟨t, ?_, logged⟩
  rw [serialize_singleton, render, iterated, bind_assoc, keyed.runOn_bind, text]
  dsimp only
  rw [bind_assoc, listed.runOn_bind]
  dsimp only
  rw [Evaluation.runOn_bind, forItems_runOn, attempts, Routine.bind_assoc, Routine.run_bind, run]
  change Routine.run ((Evaluation.ofAttempt (spell [_] [.array ((entries.map fun entry =>
    [Value.string entry.label]).map .array)])).runOn data) t = _
  rw [spell_blocks]
  rfl

end

/-! ## Loops and templates of siblings -/

namespace Scope

variable {scope : Scope} {data : Value}

/-- The node defers the label by the pauses of the entry. -/
def Defers (scope : Scope) (data : Value) (node : Node) (entry : Timed) : Prop :=
  ∃ place parameters, node = .tag place "defer" parameters none ∧ scope.Asks parameters data entry

theorem Defers.leaves (defers : scope.tags.find? "defer" = some Tags.defer) {nodes : List Node}
    {entries : List Timed} (each : List.Forall₂ (scope.Defers data) nodes entries) :
    List.Forall₂ (scope.Leaves data) nodes (entries.map Timed.deferral) := by
  rw [List.forall₂_map_right_iff]
  refine each.imp fun node entry => ?_
  rintro ⟨place, parameters, rfl, asked⟩
  exact leaves_defer defers asked

/-- Siblings really go on together. Take labels with any numbers of pauses. In a loop whose body
suspends as often and then logs its label, and in a template of as many tags each of which defers
its label, the text has the labels in the order of the siblings, while the log has them in the order
of the pauses, and of the siblings where these are equal. When one of the deferred values fails at
its end instead, and a group of this size goes in rounds, the template fails with its error, and
exactly those have logged their labels, in the same order, that end before it. Groups of up to
`roundLimit` siblings do go in rounds (`joinAll_of_le`). Larger ones go in turns, where those that
wait for a failure go on, and may log a label after it; the first two parts hold for them as well.
-/
theorem siblings_together (waits : scope.tags.find? "wait" = some Tags.wait)
    (defers : scope.tags.find? "defer" = some Tags.defer)
    (booms : scope.tags.find? "boom" = some Tags.boom) {s : Store} (fresh : s.Fresh)
    (entries : List Timed) :
    (∀ source key listing place parameters named name items,
      Gives (resolved (scope.render key)) data named → named.asString = some name →
      Gives (resolved (scope.render listing)) data (.array items) →
      List.Forall₂ (scope.Asks parameters) (itemStarts (data.asMap.getD []) name items) entries →
      ∃ t lines, ((scope.serialize
          [.loop source key listing [.tag place "wait" parameters none]]).runOn data).run s =
            ((.ok (String.join (entries.map (·.label))), data), t) ∧
        t.log = s.log ++ lines ∧ Timed.Logs entries.zipIdx lines) ∧
    (∀ nodes, List.Forall₂ (scope.Defers data) nodes entries →
      ∃ t lines, ((scope.serialize nodes).runOn data).run s =
          ((.ok (String.join (entries.map (·.label))), data), t) ∧
        t.log = s.log ++ lines ∧ Timed.Logs entries.zipIdx lines) ∧
    ∀ before last after nodes nodes' place parameters why (delay : Int64),
      entries = before ++ last :: after →
      List.Forall₂ (scope.Defers data) nodes before →
      List.Forall₂ (scope.Defers data) nodes' after →
      Gives (scope.renderResolved parameters) data [.string why, .int delay] →
      delay.toInt.toNat = last.ticks →
      (∀ group : List (Attempt Value), group.length = entries.length →
        joinAll group = joinInRounds group) →
      ∃ t lines, ((scope.serialize
          (nodes ++ .tag place "boom" parameters none :: nodes')).runOn data).run s =
            ((.error (.tag "boom" (.stated why) place), data), t) ∧
        t.log = s.log ++ lines ∧
        Timed.Logs (entries.zipIdx.filter
          fun x => Timed.ending x < toLex (last.ticks, before.length)) lines := by
  have still {n : Nat} (k : Nat) (bound : s.made ≤ k) :
      ({ s with made := n } : Store).progressOf (.made k) = ⟨0, false⟩ := fresh k bound
  refine ⟨?_, ?_, ?_⟩
  · intro source key listing place parameters named name items keyed text listed asked
    obtain ⟨t, run, logged⟩ := serialize_suspended waits keyed text listed asked s
    exact ⟨t, _, run, logged, Timed.logs_zipIdx entries⟩
  · intro nodes each
    obtain ⟨t, run, logged⟩ := Timed.spell_values each.length_eq.symm still
    exact ⟨t, _, serialize_leaves (Defers.leaves defers each) run, logged,
      Timed.logs_zipIdx entries⟩
  · rintro before last after nodes nodes' place parameters why delay rfl each each' given same
      rounds
    have failing : scope.Leaves data (.tag place "boom" parameters none)
        ⟨last.ticks, none, .error (.tag "boom" (.stated why) place)⟩ :=
      same ▸ leaves_boom booms given
    obtain ⟨t, run, logged⟩ := Timed.spell_values_fails
      (nodes ++ .tag place "boom" parameters none :: nodes') still rounds
    have leaves := List.rel_append (Defers.leaves defers each)
      (.cons failing (Defers.leaves defers each'))
    exact ⟨t, _, serialize_leaves leaves run, logged, Timed.logs_until before last after⟩

/-- The last item of three is logged first, and the failing sibling keeps from the log the one
behind it, which would have ended in the same round. -/
theorem siblings_together_three :
    let scope : Scope := ⟨Tags.withProbes Tags.builtin, .unavailable, 0⟩
    let source : Source := ⟨"t", 0, 0, 0, 0, []⟩
    let text (label : String) : Node := .literal source (.string label)
    let row (ticks : Int64) (label : String) : Value :=
      .map [("t", .int ticks), ("l", .string label)]
    let field (key : String) : Node := .identifier source ⟨[.key "x", .key key]⟩
    let wait : Node := .tag source "wait" [field "t", field "l"] none
    let defer (ticks : Int64) (label : String) : Node :=
      .tag source "defer" [.literal source (.int ticks), text label] none
    let boom : Node := .tag source "boom" [text "no", .literal source (.int 1)] none
    let data : Value := .map [("xs", .array [row 2 "a", row 2 "b", row 0 "c"])]
    (∃ t, ((scope.serialize [.loop source (text "x") (.identifier source ⟨[.key "xs"]⟩)
        [wait]]).runOn data).run .empty = ((.ok "abc", data), t) ∧ t.log = ["c", "a", "b"]) ∧
    (∃ t, ((scope.serialize [defer 2 "a", defer 2 "b", defer 0 "c"]).runOn data).run .empty =
      ((.ok "abc", data), t) ∧ t.log = ["c", "a", "b"]) ∧
    ∃ t, ((scope.serialize [defer 1 "a", boom, defer 1 "c"]).runOn data).run .empty =
      ((.error (.tag "boom" (.stated "no") source), data), t) ∧ t.log = ["a"] := by
  intro scope source text row field wait defer boom data
  have asked (label : String) (delay : Int64) (ticks : Nat) (same : delay.toInt.toNat = ticks) :
      scope.Defers data (defer delay label) ⟨ticks, label⟩ := ⟨_, _, rfl, delay, same, rfl⟩
  have sorted : Timed.Logs (List.zipIdx [⟨2, "a"⟩, ⟨2, "b"⟩, ⟨0, "c"⟩]) ["c", "a", "b"] :=
    ⟨[(⟨0, "c"⟩, 2), (⟨2, "a"⟩, 0), (⟨2, "b"⟩, 1)], by decide, by decide, rfl⟩
  obtain ⟨loops, templates, -⟩ := @siblings_together scope data rfl rfl rfl _ Store.fresh_empty
    [⟨2, "a"⟩, ⟨2, "b"⟩, ⟨0, "c"⟩]
  obtain ⟨-, -, failing⟩ := @siblings_together scope data rfl rfl rfl _ Store.fresh_empty
    [⟨1, "a"⟩, ⟨1, "no"⟩, ⟨1, "c"⟩]
  refine ⟨?_, ?_, ?_⟩
  · obtain ⟨t, lines, run, logged, logs⟩ := loops source (text "x")
      (.identifier source ⟨[.key "xs"]⟩) source [field "t", field "l"] (.string "x") "x" _
      rfl rfl rfl (.cons ⟨2, rfl, rfl⟩ (.cons ⟨2, rfl, rfl⟩ (.cons ⟨0, rfl, rfl⟩ .nil)))
    exact ⟨t, run, logged.trans (logs.unique sorted)⟩
  · obtain ⟨t, lines, run, logged, logs⟩ := templates [defer 2 "a", defer 2 "b", defer 0 "c"]
      (.cons (asked _ _ _ rfl) (.cons (asked _ _ _ rfl) (.cons (asked _ _ _ rfl) .nil)))
    exact ⟨t, run, logged.trans (logs.unique sorted)⟩
  · obtain ⟨t, lines, run, logged, logs⟩ := failing [⟨1, "a"⟩] ⟨1, "no"⟩ [⟨1, "c"⟩]
      [defer 1 "a"] [defer 1 "c"] source [text "no", .literal source (.int 1)] "no" 1 rfl
      (.cons (asked _ _ _ rfl) .nil) (.cons (asked _ _ _ rfl) .nil) rfl rfl
      fun _ three => Routine.joinAll_of_le (three.le.trans (Nat.le_of_ble_eq_true rfl))
    exact ⟨t, run, logged.trans (logs.unique ⟨[(⟨1, "a"⟩, 0)], by decide, by decide, rfl⟩)⟩

end Scope

end Stencil
