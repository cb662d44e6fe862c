import Stencil.Proofs.Rendering.Transfer

/-! # Values without their delays

How often a pending value suspends is no part of what it stands for. Without the delays reading,
writing and computing give the same, so data that differ in their delays only are kept alike by all
that a template does with them.
-/

namespace Stencil

open Routine (Ended)

/-! ## Entries and items with a function applied -/

section Maps

variable {f change change' : Value → Value}

theorem Entries.lookup_map (f : Value → Value) (key : String) (entries : List (String × Value)) :
    (entries.map fun entry => (entry.1, f entry.2)).lookup key = (entries.lookup key).map f := by
  induction entries with
  | nil => rfl
  | cons entry rest ih =>
    rw [List.map_cons, List.lookup_cons, List.lookup_cons, ih]
    split <;> rfl

variable (commutes : ∀ v, f (change v) = change' (f v))
include commutes

theorem Entries.map_update (null : f .null = .null) (key : String)
    (entries : List (String × Value)) :
    (update key change entries).map (fun entry => (entry.1, f entry.2)) =
      update key change' (entries.map fun entry => (entry.1, f entry.2)) := by
  induction entries with
  | nil =>
    unfold update
    rw [List.map_singleton, commutes, null]
    rfl
  | cons entry rest ih =>
    unfold update
    split
    · rename_i same
      rw [List.map_cons, List.map_cons, commutes]
      exact (if_pos same).symm
    · rename_i differs
      rw [List.map_cons, List.map_cons, ih]
      exact (if_neg differs).symm

theorem Value.map_changeItem (null : f .null = .null) (place : Nat) (items : List Value) :
    (changeItem place change items).map f = changeItem place change' (items.map f) := by
  have padded : items.map f ++ List.replicate (place + 1 - (items.map f).length) Value.null =
      (items ++ List.replicate (place + 1 - items.length) Value.null).map f := by
    rw [List.map_append, List.map_replicate, null, List.length_map]
  unfold changeItem
  rw [padded]
  apply List.ext_getElem?
  intro i
  rw [List.getElem?_map, List.getElem?_modify, List.getElem?_modify, List.getElem?_map]
  cases (items ++ List.replicate (place + 1 - items.length) .null)[i]? with
  | none => rfl
  | some item =>
    by_cases here : place = i
    · simp [here, commutes]
    · simp [here]

end Maps

theorem Entries.map_insert {f : Value → Value} (null : f .null = .null) (key : String)
    (value : Value) (entries : List (String × Value)) :
    (insert entries key value).map (fun entry => (entry.1, f entry.2)) =
      insert (entries.map fun entry => (entry.1, f entry.2)) key (f value) :=
  map_update (by exact fun _ => rfl) null key entries

namespace Value

mutual

/-- The value with no delay in it. -/
def timeless : Value → Value
  | pending handle _ note (.ok value) => pending handle 0 note (.ok value.timeless)
  | pending handle _ note (.error why) => pending handle 0 note (.error why)
  | lazy handle value => lazy handle value.timeless
  | array items => array (timelessItems items)
  | map entries => map (timelessEntries entries)
  | value => value

def timelessItems : List Value → List Value
  | [] => []
  | item :: rest => item.timeless :: timelessItems rest

def timelessEntries : List (String × Value) → List (String × Value)
  | [] => []
  | (key, item) :: rest => (key, item.timeless) :: timelessEntries rest

end

theorem timelessItems_eq (items : List Value) : timelessItems items = items.map timeless := by
  induction items with
  | nil => rfl
  | cons item rest ih => rw [timelessItems, List.map_cons, ih]

theorem timelessEntries_eq (entries : List (String × Value)) :
    timelessEntries entries = entries.map fun entry => (entry.1, entry.2.timeless) := by
  induction entries with
  | nil => rfl
  | cons entry rest ih => rw [timelessEntries, List.map_cons, ih]

@[simp] theorem timeless_null : timeless null = null := rfl

theorem timeless_array (items : List Value) :
    (array items).timeless = array (items.map timeless) := by rw [timeless, timelessItems_eq]

theorem timeless_map (entries : List (String × Value)) :
    (map entries).timeless = map (entries.map fun entry => (entry.1, entry.2.timeless)) := by
  rw [timeless, timelessEntries_eq]

/-! ## Computing -/

mutual

theorem computed?_timeless : ∀ value : Value, value.timeless.computed? = value.computed?
  | null | bool _ | int _ | float _ | string _ | bytes _ => rfl
  | pending _ _ _ (.ok value) => by
    rw [timeless, computed?, computed?]
    exact computed?_timeless value
  | pending _ _ _ (.error _) => by rw [timeless, computed?, computed?]
  | lazy _ value => by
    rw [timeless, computed?, computed?]
    exact computed?_timeless value
  | array items => by rw [timeless, computed?, computed?, computedItems?_timeless items]
  | map entries => by rw [timeless, computed?, computed?, computedEntries?_timeless entries]

theorem computedItems?_timeless :
    ∀ items : List Value, computedItems? (timelessItems items) = computedItems? items
  | [] => rfl
  | item :: rest => by
    rw [timelessItems, computedItems?, computedItems?, computed?_timeless item,
      computedItems?_timeless rest]

theorem computedEntries?_timeless : ∀ entries : List (String × Value),
    computedEntries? (timelessEntries entries) = computedEntries? entries
  | [] => rfl
  | (key, item) :: rest => by
    rw [timelessEntries, computedEntries?, computedEntries?, computed?_timeless item,
      computedEntries?_timeless rest]

end

/-! ## Reading -/

theorem child?_timeless (v : Value) (segment : Segment) :
    v.timeless.child? segment = (v.child? segment).map timeless := by
  cases v with
  | map entries =>
    rw [timeless_map]
    exact Entries.lookup_map timeless segment.name entries
  | array items =>
    rw [timeless_array]
    unfold child?
    cases segment.place? with
    | none => rfl
    | some place => exact List.getElem?_map
  | pending handle delay note outcome => cases outcome <;> rfl
  | _ => rfl

theorem walk?_timeless (segments : List Segment) (v : Value) :
    v.timeless.walk? segments = (v.walk? segments).map timeless := by
  induction segments generalizing v with
  | nil => rfl
  | cons segment rest ih =>
    unfold walk?
    rw [child?_timeless]
    cases v.child? segment with
    | none => rfl
    | some child => exact ih child

/-- A path reads the same value up to delays. -/
theorem get_timeless (v : Value) (path : Path) : v.timeless.get path = (v.get path).timeless := by
  unfold get lookup
  rw [walk?_timeless]
  cases v.walk? path.segments with
  | none => exact timeless_null.symm
  | some _ => rfl

/-! ## Writing -/

theorem asMap_timeless (v : Value) : v.timeless.asMap =
    v.asMap.map fun entries => entries.map fun entry => (entry.1, entry.2.timeless) := by
  cases v with
  | map entries => rw [timeless_map]; rfl
  | pending handle delay note outcome => cases outcome <;> rfl
  | _ => rfl

theorem asArray_timeless (v : Value) :
    v.timeless.asArray = v.asArray.map fun items => items.map timeless := by
  cases v with
  | array items => rw [timeless_array]; rfl
  | pending handle delay note outcome => cases outcome <;> rfl
  | _ => rfl

theorem indexed?_timeless (v : Value) (segment : Segment) :
    v.timeless.indexed? segment = v.indexed? segment := by
  cases v with
  | pending handle delay note outcome => cases outcome <;> rfl
  | _ => rfl

theorem getD_timeless (found : Option Value) :
    (found.map timeless).getD null = (found.getD null).timeless := by
  cases found <;> rfl

theorem refusal?_timeless (segments : List Segment) (v : Value) :
    v.timeless.refusal? segments = v.refusal? segments := by
  induction segments generalizing v with
  | nil => rfl
  | cons segment rest ih =>
    have items : v.timeless.asArray.getD [] = (v.asArray.getD []).map timeless := by
      rw [asArray_timeless]
      cases v.asArray <;> rfl
    unfold refusal?
    rw [indexed?_timeless, items]
    cases v.indexed? segment with
    | none =>
      cases v with
      | map entries =>
        rw [timeless_map]
        dsimp only
        rw [Entries.lookup_map, getD_timeless, ih]
      | pending handle delay note outcome => cases outcome <;> rfl
      | _ => rfl
    | some place =>
      dsimp only
      rw [List.length_map, List.getElem?_map, getD_timeless, ih]

theorem forced_timeless (v : Value) (segment : Segment) :
    v.timeless.forced segment = (v.forced segment).timeless := by
  cases v with
  | map entries =>
    rw [timeless_map]
    exact (timeless_map entries).symm
  | array items =>
    rw [timeless_array]
    cases segment with
    | index place => exact (timeless_array items).symm
    | key name =>
      unfold forced
      dsimp only
      split
      · exact (timeless_array items).symm
      · rfl
  | pending handle delay note outcome => cases outcome <;> cases segment <;> rfl
  | _ => cases segment <;> rfl

theorem changeChild_timeless {change change' : Value → Value}
    (commutes : ∀ v, (change v).timeless = change' v.timeless) (v : Value) (segment : Segment) :
    (v.changeChild segment change).timeless = v.timeless.changeChild segment change' := by
  cases v with
  | map entries =>
    rw [timeless_map]
    unfold changeChild
    rw [timeless_map, Entries.map_update commutes timeless_null]
  | array items =>
    rw [timeless_array]
    unfold changeChild
    cases segment.place? with
    | none => exact timeless_array items
    | some place =>
      dsimp only
      rw [timeless_array, map_changeItem commutes timeless_null]
  | pending handle delay note outcome => cases outcome <;> rfl
  | _ => rfl

theorem put_timeless (segments : List Segment) (v written : Value) :
    (v.put segments written).timeless = v.timeless.put segments written.timeless := by
  induction segments generalizing v with
  | nil => rfl
  | cons segment rest ih =>
    unfold put
    rw [forced_timeless]
    exact changeChild_timeless ih _ segment

/-- A write is refused alike and leaves the same value up to delays. -/
theorem trySet_timeless (v : Value) (path : Path) (written : Value) :
    v.timeless.trySet path written.timeless = (v.trySet path written).map timeless := by
  unfold trySet
  rw [refusal?_timeless]
  cases v.refusal? path.segments with
  | some refused => rfl
  | none => exact congrArg Except.ok (put_timeless path.segments v written).symm

theorem derive_timeless (v : Value) (bindings : List (String × Value)) :
    (v.derive bindings).timeless =
      v.timeless.derive (bindings.map fun binding => (binding.1, binding.2.timeless)) := by
  have start : v.timeless.asMap.getD [] =
      (v.asMap.getD []).map fun entry => (entry.1, entry.2.timeless) := by
    rw [asMap_timeless]
    cases v.asMap <;> rfl
  unfold derive Entries.insertAll
  rw [timeless_map, start]
  congr 1
  generalize v.asMap.getD [] = entries
  induction bindings generalizing entries with
  | nil => rfl
  | cons binding bindings ih =>
    rw [List.map_cons, List.foldl_cons, List.foldl_cons, ih, Entries.map_insert timeless_null]

/-- Data that differ in their delays only are read and written alike. -/
theorem keptByAccess_timeless : KeptByAccess fun x y => x.timeless = y.timeless where
  get {x y} same path := by
    rw [← computed?_timeless, ← get_timeless, same, get_timeless, computed?_timeless]
  derive {x y} same bindings := by rw [derive_timeless, derive_timeless, same]
  trySet {x y} same path written := by
    apply Ended.of_map
    rw [← trySet_timeless, ← trySet_timeless, same]

end Value

end Stencil
