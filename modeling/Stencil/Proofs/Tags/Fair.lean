import Stencil.Proofs.Rendering.Failing
import Stencil.Tags.Builtin
import Stencil.Tags.Probe

/-! # How tags fail

A tag that comes with the library fails in three ways: it rejects its call, at the source of the
call; its body fails; or what it gives back was deferred in its parameters and fails later. So
whatever is stated of errors there holds of its errors.
-/

namespace Stencil

open Evaluation (Confined)
open Routine (Assured)

variable {I : Store → Prop} {E : Error → Prop} {α : Type} {P : α → Prop} {call : Call}

/-- A call of which every rejection is as stated, with parameters and a body that fail so. -/
structure Call.Sound (I : Store → Prop) (E : Error → Prop) (call : Call) : Prop where
  rejects : ∀ fault, E (call.error fault)
  parameters : ∀ value ∈ call.parameters, value.Defers E
  body : ∀ body ∈ call.body, body.Fair I E

/-- A handler that fails as stated wherever its rejections, its parameters and its body do. -/
def Handler.Sound (I : Store → Prop) (E : Error → Prop) (handler : Handler) : Prop :=
  ∀ call : Call, call.Sound I E → Confined I E (Value.Defers E) (handler call)

/-- A sound tag is fair. -/
theorem Handler.Sound.fair {handler : Handler} (sound : handler.Sound I E) : handler.Fair I E :=
  fun call fair => sound call ⟨fun _ => fair.source _ rfl, fair.parameters, fair.body⟩

/-- Every handler is as stated. -/
def Registry.Each (H : Handler → Prop) (tags : Registry) : Prop :=
  ∀ name handler, tags.find? name = some handler → H handler

namespace Registry.Each

variable {H : Handler → Prop} {tags : Registry}

theorem imp {H' : Handler → Prop} (each : tags.Each H) (weaker : ∀ handler, H handler → H' handler) :
    tags.Each H' := fun name handler found => weaker handler (each name handler found)

theorem empty : Registry.empty.Each H := nofun

theorem register (each : tags.Each H) (name : String) {handler : Handler} (registered : H handler) :
    (tags.register name handler).Each H := by
  intro other found there
  unfold Registry.register Registry.erase Registry.find? at there
  by_cases here : other = name
  · rw [here, List.lookup_cons_self] at there
    cases there
    exact registered
  · rw [lookup_cons_ne here, lookup_filter_ne here] at there
    exact each other found there

theorem registerAll (each : tags.Each H) {entries : List (String × Handler)}
    (registered : ∀ entry ∈ entries, H entry.2) : (tags.registerAll entries).Each H := by
  induction entries generalizing tags with
  | nil => exact each
  | cons entry rest ih =>
    obtain ⟨first, others⟩ := List.forall_mem_cons.mp registered
    exact ih (each.register entry.1 first) others

end Registry.Each

/-! ## Checks of a call -/

namespace Call.Sound

variable (sound : call.Sound I E)
include sound

theorem parameter_defers (place : Nat) : (call.parameter place).Defers E := by
  unfold Call.parameter
  cases found : call.parameters[place]? with
  | none => exact Value.defers_null
  | some value => exact sound.parameters value (List.mem_of_getElem? found)

theorem reject (fault : TagFault) : Confined I E P (call.reject fault) :=
  .throw (sound.rejects _)

theorem requireCount (expected : Nat) :
    Confined I E (fun _ => True) (call.requireCount expected) := by
  unfold Call.requireCount
  split
  · exact .pure trivial
  · exact sound.reject _

theorem requireNoBody : Confined I E (fun _ => True) call.requireNoBody := by
  unfold Call.requireNoBody
  split
  · exact sound.reject _
  · exact .pure trivial

theorem requireBody : Confined I E (Body.Fair I E) call.requireBody := by
  unfold Call.requireBody
  split
  · rename_i body there
    exact .pure (sound.body body there)
  · exact sound.reject _

theorem bodyText : Confined I E (fun _ => True) call.bodyText :=
  sound.requireBody.bind fun _ body => body.text

theorem singleText : Confined I E (fun _ => True) (Tags.singleText call) :=
  (sound.requireCount 1).bind fun _ _ => .pure trivial

theorem assigned : Confined I E (Value.Defers E) (Tags.assigned call) := by
  unfold Tags.assigned
  split
  · exact sound.bodyText.bind fun _ _ => .pure (Value.defers_of_whole rfl)
  · exact sound.requireNoBody.bind fun _ _ => .pure (sound.parameter_defers 1)

end Call.Sound

/-! ## Handlers -/

namespace Tags

theorem print_sound : Handler.Sound I E print := fun _ sound =>
  sound.requireNoBody.bind fun _ _ => sound.singleText.bind fun _ _ =>
    .pure (Value.defers_of_whole rfl)

theorem verbatim_sound : Handler.Sound I E verbatim := fun _ sound =>
  sound.requireNoBody.bind fun _ _ => sound.singleText.bind fun _ _ =>
    .pure (Value.defers_of_whole rfl)

theorem contains_sound : Handler.Sound I E contains := fun _ sound =>
  (sound.requireCount 2).bind fun _ _ => .pure (Value.defers_of_whole rfl)

theorem textMap_sound (f : String → String) : Handler.Sound I E (textMap f) := fun _ sound =>
  sound.singleText.bind fun _ _ => .pure (Value.defers_of_whole rfl)

theorem count_sound : Handler.Sound I E count := by
  refine fun call sound => (sound.requireCount 1).bind fun _ _ => .pure ?_
  split <;> exact Value.defers_of_whole rfl

theorem comment_sound : Handler.Sound I E comment := fun _ _ => .pure Value.defers_null

theorem assign_sound : Handler.Sound I E assign := by
  intro call sound
  unfold assign
  dsimp only
  split
  · split
    · exact sound.reject _
    · refine sound.assigned.bind fun value defers => Confined.data.bind fun data kept => ?_
      split
      · rename_i changed written
        exact (Confined.set (kept.trySet defers written)).bind fun _ _ => .pure Value.defers_null
      · exact sound.reject _
  · exact sound.reject _

/-- The date tag is sound where the memo keeps the invariant. -/
theorem date_sound (keeps : ∀ text s, I s → I (patternOf text s).2) : Handler.Sound I E date := by
  intro call sound
  unfold date
  dsimp only
  split
  · split
    · exact sound.reject _
    split
    · exact sound.reject _
    · rename_i text _
      refine (Confined.store (P := fun _ => True) (fun _ _ => trivial) (keeps text)).bind
        fun pattern _ => ?_
      split
      · exact sound.reject _
      split
      · exact sound.reject _
      · exact .pure (Value.defers_of_whole rfl)
  · exact sound.reject _

/-! ## The tags together -/

/-- Every built-in tag is sound. -/
theorem builtin_sound (keeps : ∀ text s, I s → I (patternOf text s).2) :
    builtin.Each (Handler.Sound I E) := by
  refine .registerAll .empty ?_
  simp only [List.forall_mem_cons, List.not_mem_nil, false_implies, implies_true, and_true]
  exact ⟨print_sound, verbatim_sound, contains_sound, textMap_sound _, textMap_sound _,
    textMap_sound _, count_sound, assign_sound, assign_sound, date_sound keeps, comment_sound⟩

/-- The built-in tags are fair. -/
theorem builtin_fair (keeps : ∀ text s, I s → I (patternOf text s).2) : builtin.Fair I E :=
  (builtin_sound keeps).imp fun _ => Handler.Sound.fair

/-! ## Tags for watching -/

theorem suspend_assured (n : Nat) : Assured I (fun _ => True) (suspend n) := by
  induction n with
  | zero => exact .done trivial
  | succ n ih => exact fun _ kept => .pause kept ih

section

variable (lasting : Store.Lasting I)
include lasting

theorem draw_confined : Confined I E (fun _ => True) (Evaluation.store Store.draw) :=
  .store (fun _ _ => trivial) fun s kept => lasting s _ kept rfl rfl

theorem deferred_confined {delay : Nat} {note : Option String} {outcome : Except Error Value}
    (held : Held E (Value.Defers E) outcome) :
    Confined I E (Value.Defers E) (deferred delay note outcome) := by
  refine (draw_confined lasting).bind fun handle _ => .pure ?_
  cases outcome with
  | ok value =>
    rintro why (_ | fails)
    exact held why fails
  | error why =>
    rintro _ (_ | _)
    exact held

theorem wait_sound : Handler.Sound I E wait := by
  intro call sound
  refine (sound.requireCount 2).bind fun _ _ => ?_
  have waits : Confined I E (fun _ => True) (Evaluation.ofAttempt
      ((suspend (ticks call 0)).bind fun _ => .done (.ok ()))) :=
    .ofAttempt ((suspend_assured _).bind fun _ _ => .done trivial)
  refine waits.bind fun _ _ => ?_
  refine (Confined.store (P := fun _ => True) (fun _ _ => trivial) fun s kept => ?_).bind
    fun _ _ => .pure (sound.parameter_defers 1)
  exact lasting s _ kept rfl rfl

theorem defer_sound : Handler.Sound I E defer := fun _ sound =>
  (sound.requireCount 2).bind fun _ _ => deferred_confined lasting (sound.parameter_defers 1)

theorem boom_sound : Handler.Sound I E boom := fun _ sound =>
  deferred_confined lasting (sound.rejects _)

theorem later_sound : Handler.Sound I E later := by
  refine fun call sound => (draw_confined lasting).bind fun handle _ => .pure ?_
  rintro why (_ | _ | fails)
  exact sound.parameter_defers 0 why fails

/-- Tags stay fair when those for watching are added. -/
theorem withProbes_fair {tags : Registry} (fair : tags.Fair I E) : (withProbes tags).Fair I E := by
  refine Registry.Each.registerAll fair fun entry member => Handler.Sound.fair ?_
  revert entry member
  simp only [List.forall_mem_cons, List.not_mem_nil, false_implies, implies_true, and_true]
  refine ⟨wait_sound lasting, defer_sound lasting, boom_sound lasting, ?fail, ?repeated, ?echo,
    ?debug, ?inspect, ?blob, later_sound lasting, ?list, ?twice, ?nodes, ?depth, ?knows, ?dump⟩
  case fail => exact fun call sound => sound.reject _
  case repeated =>
    exact fun call sound => (sound.requireCount 2).bind fun _ _ => .pure (Value.defers_of_whole rfl)
  case list => exact fun call sound => .pure (Value.defers_array.mpr sound.parameters)
  case twice =>
    exact fun call sound => (sound.requireCount 0).bind fun _ _ => sound.bodyText.bind fun _ _ =>
      sound.bodyText.bind fun _ _ => .pure (Value.defers_of_whole rfl)
  case nodes => exact fun call sound => sound.requireBody.bind fun _ body => body.values
  case dump => exact fun call _ => Confined.data.bind fun _ _ => .pure (Value.defers_of_whole rfl)
  all_goals exact fun call _ => .pure (Value.defers_of_whole rfl)

end

end Tags

end Stencil
