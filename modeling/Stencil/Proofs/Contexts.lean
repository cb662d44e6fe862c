import Stencil.Context
import Stencil.Proofs.Evaluation

/-! # Contexts keep apart

Every handle sees a cell of data, and its clones see the same one. A derived context has a cell that
nobody saw before. So what is done through some handles, and through those that are made from them,
leaves the data of all others alone as long as no cell is seen from both sides.

An evaluation changes its data as it would through one handle: the data go from one step to the next
in the cell of the handle, and what runs on data of its own runs through a derived handle.
-/

namespace Stencil.Contexts

variable {c after : Contexts} {handle other : Nat} {mine : List Nat}

/-- Every handle sees a cell that there is. -/
def Sound (c : Contexts) : Prop := ∀ cell ∈ c.handles, cell < c.cells.length

theorem sound_start (data : Value) : (start data).Sound := by
  intro cell member
  rw [List.mem_singleton.mp member]
  exact Nat.one_pos

theorem cell_eq (there : handle < c.handles.length) : c.cell handle = c.handles[handle] := by
  rw [cell, List.getElem?_eq_getElem there, Option.getD_some]

theorem Sound.cell_lt (sound : c.Sound) (there : handle < c.handles.length) :
    c.cell handle < c.cells.length := by
  rw [cell_eq there]
  exact sound _ (List.getElem_mem there)

/-! ## One use of a handle -/

@[simp] theorem cell_setData (c : Contexts) (handle other : Nat) (data : Value) :
    (c.setData handle data).cell other = c.cell other := rfl

theorem Sound.setData (sound : c.Sound) (data : Value) : (c.setData handle data).Sound := by
  intro cell member
  rw [Contexts.setData, List.length_set]
  exact sound cell member

/-- New data are seen through the handle and its clones. -/
theorem data_setData_of_eq (sound : c.Sound) (there : handle < c.handles.length)
    (same : c.cell other = c.cell handle) (data : Value) :
    (c.setData handle data).data other = data := by
  rw [Contexts.data, cell_setData, same, setData, List.getElem?_set_self (sound.cell_lt there),
    Option.getD_some]

/-- Other cells keep their data. -/
theorem data_setData_of_ne (apart : c.cell handle ≠ c.cell other) (data : Value) :
    (c.setData handle data).data other = c.data other := by
  rw [Contexts.data, cell_setData, setData, List.getElem?_set_ne apart]
  rfl

@[simp] theorem setData_setData (c : Contexts) (handle : Nat) (first second : Value) :
    (c.setData handle first).setData handle second = c.setData handle second := by
  rw [setData, cell_setData, setData, List.set_set]
  rfl

/-- Setting the data that are there changes nothing. -/
theorem setData_data (sound : c.Sound) (there : handle < c.handles.length) :
    c.setData handle (c.data handle) = c := by
  have bound := sound.cell_lt there
  have seen : c.data handle = c.cells[c.cell handle] := by
    rw [data, List.getElem?_eq_getElem, Option.getD_some]
  rw [setData, seen, List.set_getElem_self]

/-- A write sets the data of the handle, or is refused and changes nothing. -/
theorem trySet_snd (c : Contexts) (handle : Nat) (path : Path) (value : Value) :
    (c.trySet handle path value).2 = c ∨
      ∃ data, (c.trySet handle path value).2 = c.setData handle data := by
  unfold trySet
  cases (c.data handle).trySet path value with
  | ok changed => exact .inr ⟨changed, rfl⟩
  | error refused => exact .inl rfl

/-- A new handle at the end, which sees a cell, while there may be a new cell at the end. -/
theorem cell_append (cells : List Value) (cell : Nat) (there : other < c.handles.length) :
    ({ c with cells := cells, handles := c.handles ++ [cell] } : Contexts).cell other =
      c.cell other := by
  rw [Contexts.cell, List.getElem?_append_left there]
  rfl

theorem lt_append (there : handle < c.handles.length) (cell : Nat) :
    handle < (c.handles ++ [cell]).length := by
  rw [List.length_append]
  exact Nat.lt_add_right _ there

theorem lt_append_new (cell : Nat) : c.handles.length < (c.handles ++ [cell]).length := by
  rw [List.length_append]
  exact Nat.lt_succ_self _

theorem lt_of_mem_new (own : ∀ handle ∈ mine, handle < c.handles.length) (cell : Nat) :
    ∀ handle ∈ c.handles.length :: mine, handle < (c.handles ++ [cell]).length := by
  intro handle member
  rcases List.mem_cons.mp member with rfl | old
  · exact lt_append_new cell
  · exact lt_append (own handle old) cell

@[simp] theorem cell_append_new (cells : List Value) (cell : Nat) :
    ({ c with cells := cells, handles := c.handles ++ [cell] } : Contexts).cell c.handles.length =
      cell := by
  rw [Contexts.cell, List.getElem?_concat_length, Option.getD_some]

/-- A clone sees a cell that there is. -/
theorem Sound.clone (sound : c.Sound) (there : handle < c.handles.length) :
    (c.clone handle).2.Sound := by
  intro cell member
  rcases List.mem_append.mp member with old | new
  · exact sound cell old
  · rw [List.mem_singleton.mp new]
    exact sound.cell_lt there

/-- A clone sees the data of its handle, and each of the two sees what is written through the
other. -/
theorem clone_shares (sound : c.Sound) (there : handle < c.handles.length) (data : Value) :
    let family := (c.clone handle).2
    let new := (c.clone handle).1
    family.data new = c.data handle ∧
      (family.setData new data).data handle = data ∧
      (family.setData handle data).data new = data := by
  have same : (c.clone handle).2.cell (c.clone handle).1 = (c.clone handle).2.cell handle := by
    rw [clone, cell_append_new, cell_append _ _ there]
  have sound' := sound.clone there
  refine ⟨?_, data_setData_of_eq sound' (lt_append_new _) same.symm data,
    data_setData_of_eq sound' (lt_append there _) same data⟩
  rw [Contexts.data, same, clone, cell_append _ _ there]
  rfl

/-- A derived context sees the cell that is made for it. -/
theorem Sound.derive (sound : c.Sound) (bindings : List (String × Value)) :
    (c.derive handle bindings).2.Sound := by
  intro cell member
  change cell < (c.cells ++ _).length
  rw [List.length_append, List.length_singleton]
  rcases List.mem_append.mp member with old | new
  · exact Nat.lt_succ_of_lt (sound cell old)
  · rw [List.mem_singleton.mp new]
    exact Nat.lt_succ_self _

/-- Deriving a context leaves the data of every handle as they are. -/
theorem data_derive (sound : c.Sound) (there : other < c.handles.length)
    (bindings : List (String × Value)) :
    (c.derive handle bindings).2.data other = c.data other := by
  rw [data, derive, cell_append _ _ there, List.getElem?_append_left (sound.cell_lt there)]
  rfl

/-- A derived context begins with the data of its parent and the bindings. -/
theorem data_derive_new (bindings : List (String × Value)) :
    (c.derive handle bindings).2.data (c.derive handle bindings).1 =
      (c.data handle).derive bindings := by
  rw [data, derive, cell_append_new, List.getElem?_concat_length, Option.getD_some]

/-! ## Work through handles of one's own -/

/-- What one does through handles of one's own. Those that are made from them become one's own. -/
inductive Work : List Nat → Contexts → Contexts → Prop
  | done (mine : List Nat) (c : Contexts) : Work mine c c
  | set {mine : List Nat} {c after : Contexts} {handle : Nat} (own : handle ∈ mine) (data : Value)
      (rest : Work mine (c.setData handle data) after) : Work mine c after
  | write {mine : List Nat} {c after : Contexts} {handle : Nat} (own : handle ∈ mine) (path : Path)
      (value : Value) (rest : Work mine (c.trySet handle path value).2 after) : Work mine c after
  | clone {mine : List Nat} {c after : Contexts} {handle : Nat} (own : handle ∈ mine)
      (rest : Work ((c.clone handle).1 :: mine) (c.clone handle).2 after) : Work mine c after
  | derive {mine : List Nat} {c after : Contexts} {handle : Nat} (own : handle ∈ mine)
      (bindings : List (String × Value))
      (rest : Work ((c.derive handle bindings).1 :: mine) (c.derive handle bindings).2 after) :
      Work mine c after

/-- Work leaves every handle with a cell. -/
theorem Work.sound (work : Work mine c after) (sound : c.Sound)
    (own : ∀ handle ∈ mine, handle < c.handles.length) : after.Sound := by
  induction work with
  | done => exact sound
  | set _ data rest ih => exact ih (sound.setData data) own
  | @write _ c _ handle _ path value rest ih =>
    rcases c.trySet_snd handle path value with same | ⟨data, same⟩ <;> rw [same] at ih
    · exact ih sound own
    · exact ih (sound.setData data) own
  | clone mem rest ih => exact ih (sound.clone (own _ mem)) (lt_of_mem_new own _)
  | derive _ bindings rest ih => exact ih (sound.derive bindings) (lt_of_mem_new own _)

/-- A family that is reached from one handle on some data has a cell for every handle. -/
theorem sound_of_work {data : Value} (work : Work [0] (start data) after) : after.Sound :=
  work.sound (sound_start data) fun handle member => by
    rw [List.mem_singleton.mp member]
    exact Nat.one_pos

/-- The handles of one's own are there, and none of them sees the cell of the other handle. -/
structure Apart (c : Contexts) (mine : List Nat) (other : Nat) : Prop where
  sound : c.Sound
  there : other < c.handles.length
  own : ∀ handle ∈ mine, handle < c.handles.length
  apart : ∀ handle ∈ mine, c.cell handle ≠ c.cell other

namespace Apart

variable (apart : c.Apart mine other)

include apart

theorem setData (data : Value) : (c.setData handle data).Apart mine other where
  sound := apart.sound.setData data
  there := apart.there
  own := apart.own
  apart := apart.apart

theorem trySet (path : Path) (value : Value) :
    (c.trySet handle path value).2.Apart mine other := by
  rcases c.trySet_snd handle path value with same | ⟨data, same⟩
  · rwa [same]
  · rw [same]
    exact apart.setData data

/-- A new handle of one's own that does not see the cell keeps apart. -/
theorem append {cells : List Value} {cell : Nat} (away : cell ≠ c.cell other)
    (sound : ({ c with cells := cells, handles := c.handles ++ [cell] } : Contexts).Sound) :
    ({ c with cells := cells, handles := c.handles ++ [cell] } : Contexts).Apart
      (c.handles.length :: mine) other where
  sound := sound
  there := lt_append apart.there cell
  own := lt_of_mem_new apart.own cell
  apart handle member := by
    rw [cell_append _ _ apart.there]
    rcases List.mem_cons.mp member with rfl | old
    · rwa [cell_append_new]
    · rw [cell_append _ _ (apart.own handle old)]
      exact apart.apart handle old

theorem clone (own : handle ∈ mine) :
    (c.clone handle).2.Apart ((c.clone handle).1 :: mine) other :=
  apart.append (apart.apart handle own) (apart.sound.clone (apart.own handle own))

theorem derive (handle : Nat) (bindings : List (String × Value)) :
    (c.derive handle bindings).2.Apart ((c.derive handle bindings).1 :: mine) other :=
  apart.append (Nat.ne_of_gt (apart.sound.cell_lt apart.there)) (apart.sound.derive bindings)

end Apart

/-- Work through handles of one's own leaves the data of a handle alone that sees none of their
cells. -/
theorem Work.data_eq (work : Work mine c after) (apart : c.Apart mine other) :
    after.data other = c.data other := by
  induction work with
  | done => rfl
  | set own data rest ih =>
    exact (ih (apart.setData data)).trans (data_setData_of_ne (apart.apart _ own) data)
  | @write _ c _ handle own path value rest ih =>
    refine (ih (apart.trySet path value)).trans ?_
    rcases c.trySet_snd handle path value with same | ⟨data, same⟩
    · rw [same]
    · rw [same, data_setData_of_ne (apart.apart _ own)]
  | @clone _ c _ handle own rest ih =>
    refine (ih (apart.clone own)).trans ?_
    rw [data, Contexts.clone, cell_append _ _ apart.there]
    rfl
  | @derive _ c _ handle own bindings rest ih =>
    exact (ih (apart.derive handle bindings)).trans (data_derive apart.sound apart.there bindings)

/-- A derived context is apart from all that there is: it begins with the data of its parent and the
bindings, work through it leaves the data of every other handle as they were, and work through the
others leaves its data alone. -/
theorem derive_apart (sound : c.Sound) (bindings : List (String × Value)) :
    (c.derive handle bindings).2.data (c.derive handle bindings).1 =
        (c.data handle).derive bindings ∧
      (∀ other < c.handles.length, ∀ after,
        Work [(c.derive handle bindings).1] (c.derive handle bindings).2 after →
          after.data other = c.data other) ∧
      ∀ mine after, (∀ other ∈ mine, other < c.handles.length) →
        Work mine (c.derive handle bindings).2 after →
          after.data (c.derive handle bindings).1 = (c.data handle).derive bindings := by
  refine ⟨data_derive_new bindings, fun other there after work => ?_,
    fun mine after own work => ?_⟩
  · have apart : c.Apart [] other := ⟨sound, there, nofun, nofun⟩
    exact (work.data_eq (apart.derive handle bindings)).trans (data_derive sound there bindings)
  · refine (work.data_eq ⟨sound.derive bindings, lt_append_new _,
      fun other member => lt_append (own other member) _,
      fun other member => ?_⟩).trans (data_derive_new bindings)
    rw [derive, cell_append _ _ (own other member), cell_append_new]
    exact Nat.ne_of_lt (sound.cell_lt (own other member))

/-! ## Evaluations through a handle -/

variable {α β : Type}

/-- Evaluates on the data of a handle, which are then what the evaluation leaves. -/
def through (c : Contexts) (handle : Nat) (e : Evaluation α) :
    Routine Store (Except Error α × Contexts) :=
  (e.runOn (c.data handle)).bind fun result => .done (result.1, c.setData handle result.2)

/-- The data of an evaluation are those that the handle sees. -/
theorem through_data (sound : c.Sound) (there : handle < c.handles.length) :
    c.through handle Evaluation.data = .done (.ok (c.data handle), c) := by
  change Routine.done (Except.ok (c.data handle), c.setData handle (c.data handle)) = _
  rw [setData_data sound there]

/-- An evaluation sets the data of the handle. -/
theorem through_set (data : Value) :
    c.through handle (set data : Evaluation Unit) = .done (.ok (), c.setData handle data) := rfl

/-- The data go from one evaluation to the next in the cell of the handle. -/
theorem through_bind (sound : c.Sound) (there : handle < c.handles.length) (e : Evaluation α)
    (f : α → Evaluation β) :
    c.through handle (e >>= f) = (c.through handle e).bind fun result =>
      match result.1 with
      | .ok a => result.2.through handle (f a)
      | .error why => .done (.error why, result.2) := by
  rw [through, through, Evaluation.runOn_bind, Routine.bind_assoc, Routine.bind_assoc]
  refine congrArg _ (funext ?_)
  rintro ⟨result, left⟩
  cases result with
  | error why => rfl
  | ok a =>
    change _ = (Evaluation.runOn _ ((c.setData handle left).data handle)).bind _
    rw [data_setData_of_eq sound there rfl]
    refine congrArg _ (funext fun last => ?_)
    rw [setData_setData]

/-- What is attempted on derived data is evaluated through a derived handle. -/
theorem attemptOn_derive (e : Evaluation α) (bindings : List (String × Value)) :
    e.attemptOn ((c.data handle).derive bindings) =
      ((c.derive handle bindings).2.through (c.derive handle bindings).1 e).bind fun result =>
        .done result.1 := by
  rw [through, Routine.bind_assoc, data_derive_new]
  rfl

/-- A body with data of its own is evaluated through a derived handle. What is done through that
handle is dropped with it: the contexts are left as they were, and so they are seen by every handle
that was there while the body was at work. -/
theorem through_isolated (sound : c.Sound) (there : handle < c.handles.length) (e : Evaluation α)
    (bindings : List (String × Value)) :
    c.through handle (Evaluation.isolated (·.derive bindings) e) =
        ((c.derive handle bindings).2.through (c.derive handle bindings).1 e).bind
          (fun result => .done (result.1, c)) ∧
      ∀ left, ∀ other < c.handles.length,
        ((c.derive handle bindings).2.setData (c.derive handle bindings).1 left).data other =
          c.data other := by
  constructor
  · have kept : c.setData handle (c.data handle) = c := setData_data sound there
    have whole : c.through handle (Evaluation.isolated (·.derive bindings) e) =
        (e.attemptOn ((c.data handle).derive bindings)).bind fun result =>
          .done (result, c.setData handle (c.data handle)) := by
      change ((e.attemptOn _).bind _).bind _ = _
      rw [Routine.bind_assoc]
      rfl
    rw [whole, kept, attemptOn_derive, Routine.bind_assoc]
    rfl
  · intro left other there
    exact (derive_apart sound bindings).2.1 other there _
      (.set (List.mem_singleton.mpr rfl) left (.done _ _))

end Stencil.Contexts
