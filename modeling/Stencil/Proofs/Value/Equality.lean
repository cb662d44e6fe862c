import Mathlib.Data.List.Perm.Subperm
import Stencil.Proofs.Value.Keys
import Stencil.Proofs.Value.Resolution

/-! # Equality either way round

Values are equal when one of their projections agrees, and otherwise when they have the same shape
with equal parts. All of this can be asked either way round. Of two maps only the entries of the
first are looked up in the second, but with as many keys that are all different none is left over.
A value always equals itself: what has a text by its text, even where that is no number, and
everything else by its shape.
-/

namespace Stencil

namespace Decimal

/-- Comparing the other way round turns the order of two doubles, where they have one. -/
theorem compare?_swap (x y : Float) : (compare? x y).map Ordering.swap = compare? y x := by
  unfold compare?
  cases (Binary.ofFloat x).place? with
  | none => cases (Binary.ofFloat y).place? <;> rfl
  | some a =>
    cases (Binary.ofFloat y).place? with
    | none => rfl
    | some b => exact congrArg some (Int.compare_swap a b)

theorem sameNumber_comm (x y : Float) : sameNumber x y = sameNumber y x := by
  rw [sameNumber, sameNumber, ← compare?_swap x y]
  cases compare? x y with
  | none => rfl
  | some order => cases order <;> rfl

end Decimal

namespace Value

variable {v w : Value} {items others : List Value} {entries fs : List (String × Value)}

/-! ## Scalars -/

theorem agree_comm {α : Type} {same : α → α → Bool} (comm : ∀ a b, same a b = same b a)
    (x y : Option α) : agree same x y = agree same y x := by
  match x, y with
  | some a, some b => exact comm a b
  | some _, none | none, some _ | none, none => rfl

theorem projectsLike_comm (v w : Value) : v.projectsLike w = w.projectsLike v := by
  unfold projectsLike
  rw [agree_comm (fun _ _ => Bool.beq_comm) v.asString,
    agree_comm (fun _ _ => Bool.beq_comm) v.asInt, agree_comm Decimal.sameNumber_comm,
    agree_comm (fun _ _ => Bool.beq_comm) v.asBool]

theorem sameScalar_comm (v w : Value) : v.sameScalar w = w.sameScalar v := by
  cases v <;> cases w <;> simp only [sameScalar, Bool.beq_comm, Decimal.sameNumber_comm]

/-- Unless both are arrays or both are maps, two values are equal by a projection or as scalars. -/
theorem same_of_apart (arrays : (v.isArray && w.isArray) = false)
    (maps : (v.isMap && w.isMap) = false) : v.same w = (v.projectsLike w || v.sameScalar w) := by
  refine same.eq_3 v w ?_ ?_
  · rintro a b rfl rfl
    cases arrays
  · rintro a b rfl rfl
    cases maps

/-- Equality is symmetric where not both values are arrays and not both are maps. -/
theorem same_comm_of_apart (arrays : (v.isArray && w.isArray) = false)
    (maps : (v.isMap && w.isMap) = false) : v.same w = w.same v := by
  have arrays' : (w.isArray && v.isArray) = false := Bool.and_comm _ _ ▸ arrays
  have maps' : (w.isMap && v.isMap) = false := Bool.and_comm _ _ ▸ maps
  rw [same_of_apart arrays maps, same_of_apart arrays' maps', projectsLike_comm, sameScalar_comm]

/-! ## Arrays and maps -/

theorem same_array : (array items).same (array others) = true ↔
    List.Forall₂ (fun v w => v.same w = true) items others := by
  rw [same]
  induction items generalizing others with
  | nil => cases others <;> simp [sameItems]
  | cons v rest ih =>
    cases others with
    | nil => simp [sameItems]
    | cons w rest' => rw [sameItems, Bool.and_eq_true, List.forall₂_cons, ih]

theorem sameEntries_iff : sameEntries entries fs = true ↔
    ∀ entry ∈ entries, ∃ w, fs.lookup entry.1 = some w ∧ entry.2.same w = true := by
  induction entries with
  | nil => simp [sameEntries]
  | cons entry rest ih =>
    obtain ⟨key, v⟩ := entry
    rw [sameEntries, Bool.and_eq_true, List.forall_mem_cons, ih]
    cases fs.lookup key <;> simp

theorem same_map : (map entries).same (map fs) = true ↔ entries.length = fs.length ∧
    ∀ entry ∈ entries, ∃ w, fs.lookup entry.1 = some w ∧ entry.2.same w = true := by
  rw [same, Bool.and_eq_true, beq_iff_eq, sameEntries_iff]

/-! ## A value and itself -/

/-- The same value up to the order of the entries of the maps in it. -/
inductive Reordered : Value → Value → Prop
  | refl (value : Value) : Reordered value value
  | array {items items' : List Value} (each : List.Forall₂ Reordered items items') :
      Reordered (.array items) (.array items')
  | map {entries order : List (String × Value)}
      (keys : (entries.map Prod.fst).Perm (order.map Prod.fst))
      (each : ∀ key v v', (key, v) ∈ entries → (key, v') ∈ order → Reordered v v') :
      Reordered (.map entries) (.map order)

theorem reordered_array (moved : (array items).Reordered w) :
    ∃ items', w = .array items' ∧ List.Forall₂ Reordered items items' := by
  cases moved with
  | refl => exact ⟨items, rfl, List.forall₂_same.mpr fun item _ => .refl item⟩
  | array each => exact ⟨_, rfl, each⟩

theorem reordered_map (distinct : (entries.map Prod.fst).Nodup)
    (moved : (map entries).Reordered w) : ∃ order, w = .map order ∧
      (entries.map Prod.fst).Perm (order.map Prod.fst) ∧
      ∀ key v v', (key, v) ∈ entries → (key, v') ∈ order → Reordered v v' := by
  cases moved with
  | refl =>
    refine ⟨entries, rfl, .refl _, fun key v v' here there => ?_⟩
    have found := (Entries.lookup_eq_some_iff_mem distinct).mpr here
    rw [(Entries.lookup_eq_some_iff_mem distinct).mpr there] at found
    cases found
    exact .refl v
  | map keys each => exact ⟨_, rfl, keys, each⟩

theorem same_self_of_asString (scalar : v.isArray = false ∧ v.isMap = false)
    (written : v.asString.isSome = true) : v.same v = true := by
  obtain ⟨text, found⟩ := Option.isSome_iff_exists.mp written
  rw [same_of_apart (by rw [scalar.1]; rfl) (by rw [scalar.2]; rfl), projectsLike, found]
  simp [agree]

theorem same_self_of_sameScalar (scalar : v.isArray = false ∧ v.isMap = false)
    (same : v.sameScalar v = true) : v.same v = true := by
  rw [same_of_apart (by rw [scalar.1]; rfl) (by rw [scalar.2]; rfl), same, Bool.or_true]

/-- A value equals itself, whatever the order of the entries of its maps is. -/
theorem same_of_reordered (keyed : v.Keyed) (moved : v.Reordered w) : v.same w = true := by
  induction v using parts_induction generalizing w with
  | array items ih =>
    obtain ⟨items', rfl, each⟩ := reordered_array moved
    exact same_array.mpr (forall₂_imp_of_mem each fun item member _ moved =>
      ih item member (keyed_array.mp keyed item member) moved)
  | map entries ih =>
    obtain ⟨distinct, inside⟩ := keyed_map.mp keyed
    obtain ⟨order, rfl, keys, each⟩ := reordered_map distinct moved
    have lengths := keys.length_eq
    rw [List.length_map, List.length_map] at lengths
    refine same_map.mpr ⟨lengths, fun entry member => ?_⟩
    have there := keys.mem_iff.mp (List.mem_map.mpr ⟨entry, member, rfl⟩)
    obtain ⟨⟨key, value⟩, among, rfl⟩ := List.mem_map.mp there
    have distinct' := keys.nodup_iff.mp distinct
    refine ⟨value, (Entries.lookup_eq_some_iff_mem distinct').mpr among, ?_⟩
    exact ih entry member (inside entry member) (each _ _ _ member among)
  | null =>
    cases moved
    rfl
  | bool | int | float | string =>
    cases moved
    exact same_self_of_asString ⟨rfl, rfl⟩ rfl
  | bytes | failed | pending | lazy =>
    cases moved
    exact same_self_of_sameScalar ⟨rfl, rfl⟩ (beq_self_eq_true _)

/-! ## Two values -/

theorem same_array_comm (comm : ∀ v ∈ items, ∀ w ∈ others, v.same w = w.same v)
    (same : (array items).same (array others) = true) :
    (array others).same (array items) = true := by
  rw [same_array] at same ⊢
  induction same with
  | nil => exact .nil
  | cons equal _ ih =>
    obtain ⟨first, rest⟩ := List.forall_mem_cons.mp comm
    refine .cons ?_ (ih fun v member w among => rest v member w (List.mem_cons_of_mem _ among))
    rw [← first _ List.mem_cons_self, equal]

/-- Maps of equal entries are equal in either order of the operands. -/
theorem same_map_comm (distinct : (entries.map Prod.fst).Nodup)
    (distinct' : (fs.map Prod.fst).Nodup)
    (comm : ∀ entry ∈ entries, ∀ f ∈ fs, entry.2.same f.2 = f.2.same entry.2)
    (same : (map entries).same (map fs) = true) : (map fs).same (map entries) = true := by
  obtain ⟨lengths, each⟩ := same_map.mp same
  have within : entries.map Prod.fst ⊆ fs.map Prod.fst := by
    intro key member
    obtain ⟨entry, among, rfl⟩ := List.mem_map.mp member
    obtain ⟨value, found, -⟩ := each entry among
    exact List.mem_map.mpr ⟨_, (Entries.lookup_eq_some_iff_mem distinct').mp found, rfl⟩
  -- Of as many keys that are all different none is left over.
  have keys : (entries.map Prod.fst).Perm (fs.map Prod.fst) :=
    (distinct.subperm within).perm_of_length_le (by simp [lengths])
  refine same_map.mpr ⟨lengths.symm, fun f member => ?_⟩
  have there := keys.mem_iff.mpr (List.mem_map.mpr ⟨f, member, rfl⟩)
  obtain ⟨entry, among, key⟩ := List.mem_map.mp there
  obtain ⟨value, found, equal⟩ := each entry among
  rw [key, (Entries.lookup_eq_some_iff_mem distinct').mpr member] at found
  cases found
  refine ⟨entry.2, (Entries.lookup_eq_some_iff_mem distinct).mpr (key ▸ among), ?_⟩
  rw [← comm entry among f member, equal]

/-- Equality is symmetric on values with unique keys. -/
theorem same_comm (keyed : v.Keyed) (keyed' : w.Keyed) : v.same w = w.same v := by
  induction v using parts_induction generalizing w with
  | array items ih =>
    cases w with
    | array others =>
      have comm : ∀ v ∈ items, ∀ w ∈ others, v.same w = w.same v := fun v member w among =>
        ih v member (keyed_array.mp keyed v member) (keyed_array.mp keyed' w among)
      rw [Bool.eq_iff_iff]
      exact ⟨same_array_comm comm,
        same_array_comm fun w among v member => (comm v member w among).symm⟩
    | _ => exact same_comm_of_apart rfl rfl
  | map entries ih =>
    cases w with
    | map fs =>
      obtain ⟨distinct, inside⟩ := keyed_map.mp keyed
      obtain ⟨distinct', inside'⟩ := keyed_map.mp keyed'
      have comm : ∀ entry ∈ entries, ∀ f ∈ fs, entry.2.same f.2 = f.2.same entry.2 :=
        fun entry member f among => ih entry member (inside entry member) (inside' f among)
      rw [Bool.eq_iff_iff]
      exact ⟨same_map_comm distinct distinct' comm, same_map_comm distinct' distinct
        fun f among entry member => (comm entry member f among).symm⟩
    | _ => exact same_comm_of_apart rfl rfl
  | _ => exact same_comm_of_apart rfl rfl

/-- Equality is reflexive and symmetric, over values of all shapes in which a key of a map occurs
once. A value equals itself: also a float that is not a number, bytes that are no text, what is
deferred, and a copy with the entries of the maps in it in any other order. Of two values it does
not matter which is compared with which. -/
theorem same_refl_symm (u v : Value) (keyed : u.Keyed) (keyed' : v.Keyed) :
    u.same u = true ∧ (∀ copy, u.Reordered copy → u.same copy = true) ∧
      (u.same v = true ↔ v.same u = true) :=
  ⟨same_of_reordered keyed (.refl u), fun _ => same_of_reordered keyed,
    by rw [same_comm keyed keyed']⟩

/-- A float that is not a number, bytes that are no text, and a value that is deferred. -/
private def oddities : List (String × Value) :=
  [("x", .float Decimal.notANumber), ("y", .array [.bytes [0xff], .lazy (.host 0) .null])]

/-- Values that equal little else equal themselves, in either order of their keys. -/
theorem same_refl_symm_oddities :
    (map oddities).Keyed ∧ (map oddities.reverse).Keyed ∧
      (map oddities).Reordered (map oddities.reverse) ∧
      (map oddities).same (map oddities) = true ∧
      (map oddities).same (map oddities.reverse) = true ∧
      (map oddities.reverse).same (map oddities) = true := by
  have keyed : (map oddities).Keyed := by
    simp only [oddities, keyed_map, keyed_array, keyed_lazy, List.forall_mem_cons,
      List.not_mem_nil, false_implies, implies_true, and_true]
    refine ⟨by decide, ?_, ?_, ?_⟩ <;> rintro _ ⟨⟩
  obtain ⟨distinct, inside⟩ := keyed_map.mp keyed
  have keyed' : (map oddities.reverse).Keyed := keyed_map.mpr
    ⟨by decide, fun entry member => inside entry (List.mem_reverse.mp member)⟩
  have reordered : (map oddities).Reordered (map oddities.reverse) := by
    refine .map (by decide) fun key v v' here there => ?_
    have found := (Entries.lookup_eq_some_iff_mem distinct).mpr here
    rw [(Entries.lookup_eq_some_iff_mem distinct).mpr (List.mem_reverse.mp there)] at found
    cases found
    exact .refl v
  obtain ⟨self, copies, turned⟩ := same_refl_symm (map oddities) (map oddities.reverse) keyed keyed'
  have copied := copies _ reordered
  exact ⟨keyed, keyed', reordered, self, copied, turned.mp copied⟩

end Value

end Stencil
