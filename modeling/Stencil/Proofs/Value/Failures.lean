import Stencil.Proofs.Rendering.Computed

/-! # What fails in a value

A pending value may end with an error, at any depth of the value that holds it. Reading data puts no
failure into a value that was not in the data, and writing none but those of what is written. A
value fails to resolve only as something in it does, and once it is resolved nothing in it fails.
-/

namespace Stencil

open Routine (Assured Joined)

namespace Value

/-- Something deferred in the value ends with the error. -/
inductive Fails : Value → Error → Prop
  | failed (handle : Handle) (delay : Nat) (note : Option String) (why : Error) :
      Fails (.pending handle delay note (.error why)) why
  | pending {handle : Handle} {delay : Nat} {note : Option String} {value : Value} {why : Error}
      (inside : Fails value why) : Fails (.pending handle delay note (.ok value)) why
  | lazy {handle : Handle} {value : Value} {why : Error} (inside : Fails value why) :
      Fails (.lazy handle value) why
  | item {items : List Value} {item : Value} {why : Error} (member : item ∈ items)
      (inside : Fails item why) : Fails (.array items) why
  | entry {entries : List (String × Value)} {entry : String × Value} {why : Error}
      (member : entry ∈ entries) (inside : Fails entry.2 why) : Fails (.map entries) why

theorem anyItem_of_mem {item : Value} {items : List Value} (member : item ∈ items)
    (needed : item.needsResolution = true) : anyItem items = true := by
  induction member with
  | head => rw [anyItem, needed, Bool.true_or]
  | tail _ _ ih => rw [anyItem, ih, Bool.or_true]

theorem anyEntry_of_mem {entry : String × Value} {entries : List (String × Value)}
    (member : entry ∈ entries) (needed : entry.2.needsResolution = true) :
    anyEntry entries = true := by
  induction member with
  | head => rw [anyEntry, needed, Bool.true_or]
  | tail _ _ ih => rw [anyEntry, ih, Bool.or_true]

/-- All that fails in the value fails as stated. -/
def Defers (E : Error → Prop) (value : Value) : Prop := ∀ why, value.Fails why → E why

variable {E : Error → Prop} {value written : Value} {items : List Value}
  {entries : List (String × Value)}

theorem Defers.mono {E' : Error → Prop} (defers : value.Defers E) (wider : ∀ why, E why → E' why) :
    value.Defers E' := fun why fails => wider why (defers why fails)

/-- Only what still has to be resolved fails. -/
theorem Fails.needsResolution {why : Error} (fails : value.Fails why) :
    value.needsResolution = true := by
  induction fails with
  | failed | pending | lazy => rfl
  | item member _ ih => exact anyItem_of_mem member ih
  | entry member _ ih => exact anyEntry_of_mem member ih

/-- Where nothing has to be resolved nothing fails. -/
theorem defers_of_whole (whole : value.needsResolution = false) : value.Defers E :=
  fun _ fails => Bool.noConfusion (whole.symm.trans fails.needsResolution)

theorem defers_null : Value.Defers E .null := defers_of_whole rfl

theorem defers_array : Value.Defers E (.array items) ↔ ∀ item ∈ items, item.Defers E := by
  constructor
  · exact fun defers item member why fails => defers why (.item member fails)
  · rintro each why (_ | _ | _ | ⟨member, fails⟩)
    exact each _ member why fails

theorem defers_map : Value.Defers E (.map entries) ↔ ∀ entry ∈ entries, entry.2.Defers E := by
  constructor
  · exact fun defers entry member why fails => defers why (.entry member fails)
  · rintro each why (_ | _ | _ | _ | ⟨member, fails⟩)
    exact each _ member why fails

/-! ## Reading -/

theorem Defers.lookup_map {key : String} (each : ∀ entry ∈ entries, entry.2.Defers E)
    (found : entries.lookup key = some value) : value.Defers E := by
  induction entries with
  | nil => cases found
  | cons entry rest ih =>
    obtain ⟨first, others⟩ := List.forall_mem_cons.mp each
    rw [List.lookup_cons] at found
    split at found
    · cases found
      exact first
    · exact ih others found

theorem Defers.child? {segment : Segment} {child : Value} (defers : value.Defers E)
    (found : value.child? segment = some child) : child.Defers E := by
  unfold Value.child? at found
  split at found
  · exact Defers.lookup_map (defers_map.mp defers) found
  · obtain ⟨place, _, there⟩ := Option.bind_eq_some_iff.mp found
    exact defers_array.mp defers _ (List.mem_of_getElem? there)
  · cases found

theorem Defers.walk? {segments : List Segment} {end_ : Value} (defers : value.Defers E)
    (found : value.walk? segments = some end_) : end_.Defers E := by
  induction segments generalizing value with
  | nil =>
    cases found
    exact defers
  | cons segment rest ih =>
    obtain ⟨child, first, further⟩ := Option.bind_eq_some_iff.mp found
    exact ih (defers.child? first) further

/-- What a path leads to fails as the whole does. -/
theorem Defers.get (defers : value.Defers E) (path : Path) : (value.get path).Defers E := by
  unfold Value.get Value.lookup
  cases found : value.walk? path.segments with
  | none => exact defers_null
  | some end_ => exact defers.walk? found

/-! ## Writing -/

theorem Defers.update {key : String} {change : Value → Value}
    (each : ∀ entry ∈ entries, entry.2.Defers E) (changes : ∀ v, v.Defers E → (change v).Defers E) :
    ∀ entry ∈ Entries.update key change entries, entry.2.Defers E := by
  induction entries with
  | nil =>
    unfold Entries.update
    exact List.forall_mem_singleton.mpr (changes _ defers_null)
  | cons entry rest ih =>
    obtain ⟨first, others⟩ := List.forall_mem_cons.mp each
    unfold Entries.update
    split
    · exact List.forall_mem_cons.mpr ⟨changes _ first, others⟩
    · exact List.forall_mem_cons.mpr ⟨first, ih others⟩

theorem Defers.insertAll {bindings : List (String × Value)}
    (each : ∀ entry ∈ entries, entry.2.Defers E)
    (bound : ∀ binding ∈ bindings, binding.2.Defers E) :
    ∀ entry ∈ Entries.insertAll entries bindings, entry.2.Defers E := by
  induction bindings generalizing entries with
  | nil => exact each
  | cons binding rest ih =>
    obtain ⟨first, others⟩ := List.forall_mem_cons.mp bound
    exact ih (update each fun _ _ => first) others

theorem Defers.derive {bindings : List (String × Value)} (defers : value.Defers E)
    (bound : ∀ binding ∈ bindings, binding.2.Defers E) : (value.derive bindings).Defers E := by
  refine defers_map.mpr (insertAll ?_ bound)
  cases value with
  | map entries => exact defers_map.mp defers
  | _ => exact nofun

theorem Defers.changeItem {place : Nat} {change : Value → Value}
    (each : ∀ item ∈ items, item.Defers E) (changes : ∀ v, v.Defers E → (change v).Defers E) :
    ∀ item ∈ Value.changeItem place change items, item.Defers E := by
  have padded : ∀ item ∈ items ++ List.replicate (place + 1 - items.length) null,
      item.Defers E := by
    refine List.forall_mem_append.mpr ⟨each, fun item member => ?_⟩
    rw [List.eq_of_mem_replicate member]
    exact defers_null
  intro item member
  obtain ⟨i, there⟩ := List.mem_iff_getElem?.mp member
  rw [Value.changeItem, List.getElem?_modify] at there
  obtain ⟨old, found, rfl⟩ := Option.map_eq_some_iff.mp there
  have kept := padded old (List.mem_of_getElem? found)
  split
  · exact changes old kept
  · exact kept

theorem Defers.forced (defers : value.Defers E) (segment : Segment) :
    (value.forced segment).Defers E := by
  unfold Value.forced
  split
  · exact defers
  · exact defers
  · split
    · exact defers
    · exact defers_map.mpr nofun
  · exact defers_map.mpr nofun
  · exact defers_array.mpr nofun

theorem Defers.changeChild {segment : Segment} {change : Value → Value} (defers : value.Defers E)
    (changes : ∀ v, v.Defers E → (change v).Defers E) :
    (value.changeChild segment change).Defers E := by
  unfold Value.changeChild
  split
  · exact defers_map.mpr (update (defers_map.mp defers) changes)
  · split
    · exact defers_array.mpr (changeItem (defers_array.mp defers) changes)
    · exact defers
  · exact defers

theorem Defers.put {segments : List Segment} (defers : value.Defers E)
    (writes : written.Defers E) : (value.put segments written).Defers E := by
  induction segments generalizing value with
  | nil => exact writes
  | cons segment rest ih => exact (defers.forced segment).changeChild fun v kept => ih kept

/-- A value set at a path fails as the two values do. -/
theorem Defers.trySet {path : Path} {changed : Value} (defers : value.Defers E)
    (writes : written.Defers E) (set : value.trySet path written = .ok changed) :
    changed.Defers E := by
  unfold Value.trySet at set
  split at set
  · cases set
  · cases set
    exact defers.put writes

/-! ## Resolving -/

/-- The result of resolving a value: nothing fails in it any more, or it failed as something did. -/
def ResolvesTo (value : Value) : Except Error Value → Prop
  | .ok settled => settled.Defers fun _ => False
  | .error why => value.Fails why

mutual

/-- A resolution ends with the value it resolves to. -/
theorem resolve_resolvesTo {I : Store → Prop} (lasting : Store.Lasting I) : ∀ value : Value,
    Assured I value.ResolvesTo value.resolve
  | null | bool _ | int _ | float _ | string _ | bytes _ => by
    unfold resolve
    exact .done (defers_of_whole rfl)
  | pending handle delay note (.ok value) => by
    unfold resolve
    refine (await_assured lasting handle delay note).bind fun _ _ =>
      (resolve_resolvesTo lasting value).mono fun result settled => ?_
    cases result with
    | ok w => exact settled
    | error why => exact Fails.pending settled
  | pending handle delay note (.error why) => by
    unfold resolve
    exact (await_assured lasting handle delay note).bind fun _ _ => .done (.failed _ _ _ _)
  | lazy _ value => by
    unfold resolve
    refine (resolve_resolvesTo lasting value).mono fun result settled => ?_
    cases result with
    | ok w => exact settled
    | error why => exact Fails.lazy settled
  | array items => by
    unfold resolve
    refine (Assured.joinAll (resolveItems_resolvesTo lasting items)).bind fun result joined =>
      .done ?_
    cases result with
    | ok values =>
      refine defers_array.mpr fun value member => ?_
      obtain ⟨item, _, settled⟩ := joined.of_mem member
      exact settled
    | error why =>
      obtain ⟨item, member, fails⟩ := joined.of_error
      exact Fails.item member fails
  | map entries => by
    unfold resolve
    refine (Assured.joinAll (resolveEntries_resolvesTo lasting entries)).bind fun result joined =>
      .done ?_
    cases result with
    | ok values =>
      refine defers_map.mpr fun value member => ?_
      obtain ⟨entry, _, settled⟩ := joined.of_mem member
      exact settled
    | error why =>
      obtain ⟨entry, member, fails⟩ := joined.of_error
      exact Fails.entry member fails

theorem resolveItems_resolvesTo {I : Store → Prop} (lasting : Store.Lasting I) :
    ∀ items : List Value,
      List.Forall₂ (Assured I) (items.map ResolvesTo) (resolveItems items)
  | [] => .nil
  | item :: rest => by
    unfold resolveItems
    exact .cons (resolve_resolvesTo lasting item) (resolveItems_resolvesTo lasting rest)

theorem resolveEntries_resolvesTo {I : Store → Prop} (lasting : Store.Lasting I) :
    ∀ entries : List (String × Value), List.Forall₂ (Assured I)
      (entries.map fun entry result => entry.2.ResolvesTo (result.map Prod.snd))
      (resolveEntries entries)
  | [] => .nil
  | (key, item) :: rest => by
    unfold resolveEntries
    refine .cons ((resolve_resolvesTo lasting item).bind fun result settled => .done ?_)
      (resolveEntries_resolvesTo lasting rest)
    cases result <;> exact settled

end

end Value

end Stencil
