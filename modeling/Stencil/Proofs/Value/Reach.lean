import Stencil.Proofs.Value.Writing

/-! # The reach of a write

Whether a write is refused is decided before anything is written, from the data as they are. The
decision is that of the write itself: a write without it would go the same way, making containers
and room as it goes, and the first array that it would index too far past the end is the one that
the refusal names. So a write that is not refused pads no array by more than the bound.
-/

namespace Stencil

/-- An array that a write indexes, and the length it has then. -/
structure Indexing where
  index : Nat
  length : Nat
  deriving DecidableEq, Repr

namespace Indexing

/-- The index lies too far past the end. -/
def far (i : Indexing) : Bool := i.index > i.length + Value.maxArrayPadding

def refused (i : Indexing) : OutOfReach := ⟨i.index, i.length⟩

end Indexing

namespace Value

/-- What a step of a write indexes, when the container that it makes of the value is an array. -/
def indexing? (v : Value) (segment : Segment) : Option Indexing :=
  match v.forced segment with
  | array items => segment.place?.map fun index => ⟨index, items.length⟩
  | _ => none

/-- The container that a step of a write makes of the value, with a child under the segment. -/
def opened (v : Value) (segment : Segment) : Value := (v.forced segment).changeChild segment id

/-- A write without a look ahead. It opens each container on its way and goes on in the child, and
notes what it indexes. -/
def enter (v : Value) (segments : List Segment) (written : Value) : List Indexing × Value :=
  match segments with
  | [] => ([], written)
  | segment :: rest =>
    let (noted, child) := (((v.opened segment).child? segment).getD null).enter rest written
    ((v.indexing? segment).toList ++ noted, (v.opened segment).changeChild segment fun _ => child)

/-- The greatest length of an array in memory. -/
def greatestLength : Nat := 9223372036854775807

variable {v written : Value} {segment : Segment} {before rest : List Segment}

theorem child?_opened (v : Value) (segment : Segment) :
    (v.opened segment).child? segment = some ((v.child? segment).getD null) := by
  rw [opened, child?_changeChild_self (v.address?_forced segment), child?_forced]
  rfl

theorem enter_cons (v : Value) (segment : Segment) (rest : List Segment) (written : Value) :
    v.enter (segment :: rest) written =
      ((v.indexing? segment).toList ++ (((v.child? segment).getD null).enter rest written).1,
        (v.opened segment).changeChild segment
          fun _ => (((v.child? segment).getD null).enter rest written).2) := by
  rw [enter, child?_opened]
  rfl

/-- The write that enters the containers one by one is the write as a whole. -/
theorem enter_snd (segments : List Segment) (v written : Value) :
    (v.enter segments written).2 = v.put segments written := by
  induction segments generalizing v with
  | nil => rfl
  | cons segment rest ih =>
    rw [enter_cons, ih, put, changeChild_eq_const (v.forced segment), child?_forced]
    exact changeChild_changeChild _ _ _ _

/-- The refusals of a path are those of its parts in turn. -/
theorem enter_append (before after : List Segment) (v written : Value) :
    (v.enter (before ++ after) written).1 =
      (v.enter before written).1 ++ (((v.walk? before).getD null).enter after written).1 := by
  induction before generalizing v with
  | nil => rfl
  | cons segment before ih =>
    rw [List.cons_append, enter_cons, enter_cons, getD_walk?_cons, ih, List.append_assoc]

/-! ## The look ahead -/

/-- The look ahead foresees what a step of the write indexes: in a value that is an array or will
be replaced by one. -/
theorem indexing?_eq (v : Value) (segment : Segment) :
    v.indexing? segment =
      (v.indexed? segment).map fun index => ⟨index, (v.asArray.getD []).length⟩ := by
  cases v with
  | map entries => cases segment <;> rfl
  | array items =>
    cases segment with
    | index place => rfl
    | key name =>
      cases reads : Decimal.index? name with
      | none => simp [indexing?, forced, indexed?, isArray, reads]
      | some place => simp [indexing?, forced, indexed?, isArray, asArray, Segment.place?, reads]
  | _ => cases segment <;> rfl

/-- Where a step indexes, its child is an item; a value that is no array has none. -/
theorem child?_of_indexed? {place : Nat} (indexed : v.indexed? segment = some place) :
    v.child? segment = (v.asArray.getD [])[place]? := by
  cases v with
  | map entries => cases segment <;> cases indexed
  | array items =>
    have there : segment.place? = some place := by cases segment <;> exact indexed
    rw [child?, there]
    rfl
  | _ => rfl

/-- The look ahead stops at a far index and otherwise goes on where the write does. -/
theorem refusal?_cons (v : Value) (segment : Segment) (rest : List Segment) :
    v.refusal? (segment :: rest) =
      match v.indexing? segment with
      | some noted =>
        if noted.far then some noted.refused else ((v.child? segment).getD null).refusal? rest
      | none => ((v.child? segment).getD null).refusal? rest := by
  rw [indexing?_eq, refusal?.eq_def]
  dsimp only
  cases indexed : v.indexed? segment with
  | some place =>
    simp only [Option.map_some, Indexing.far, decide_eq_true_eq, child?_of_indexed? indexed]
    rfl
  | none =>
    cases v with
    | array items =>
      cases segment with
      | index place => cases indexed
      | key name =>
        have unread : Decimal.index? name = none := indexed
        rw [child?, Segment.place?, unread]
        rfl
    | _ => rfl

/-- What is refused is the first far index of the write without a look ahead. -/
theorem refusal?_eq (segments : List Segment) (v written : Value) :
    v.refusal? segments =
      ((v.enter segments written).1.find? Indexing.far).map Indexing.refused := by
  induction segments generalizing v with
  | nil => rfl
  | cons segment rest ih =>
    rw [refusal?_cons, enter_cons]
    cases v.indexing? segment with
    | none => exact ih _
    | some noted =>
      cases far : noted.far with
      | true => simp [far]
      | false => simpa [far] using ih _

/-! ## Growth -/

/-- An array that a write leaves is as long as it was, or reaches up to what the write indexes. -/
theorem length_put {items : List Value}
    (there : v.put (segment :: rest) written = array items) :
    ∃ noted, v.indexing? segment = some noted ∧ noted.length = (v.asArray.getD []).length ∧
      items.length = max noted.length (noted.index + 1) := by
  have fits := v.address?_forced segment
  have seen := v.indexing?_eq segment
  rw [put] at there
  rw [indexing?] at seen ⊢
  cases container : v.forced segment with
  | array old =>
    rw [container] at there fits seen
    cases place : segment.place? with
    | none => simp [address?, place] at fits
    | some index =>
      simp only [changeChild, place, array.injEq] at there
      subst there
      simp only [place, Option.map_some] at seen ⊢
      obtain ⟨_, -, same⟩ := Option.map_eq_some_iff.mp seen.symm
      exact ⟨_, rfl, (congrArg Indexing.length same).symm, length_changeItem _ _ _⟩
  | map entries =>
    rw [container] at there
    cases there
  | _ =>
    rw [container] at fits
    cases fits

theorem getD_asArray_getD (found : Option Value) :
    (found.getD null).asArray.getD [] = (found.bind asArray).getD [] := by
  cases found <;> rfl

/-- A write is refused just when the same write without a look ahead would index an array too far
past its end, with the first such index and the length of its array, and then nothing changes. One
that is not refused is that write; the arrays on its path grow by no more than the padding and one
item, and no index on it is the greatest there is. -/
theorem trySet_reach (v : Value) (path : Path) (written : Value) :
    (∀ refused, v.trySet path written = .error refused ↔
      ((v.enter path.segments written).1.find? Indexing.far).map Indexing.refused =
        some refused) ∧
    (∀ refused, v.trySet path written = .error refused → v.set path written = v) ∧
    ∀ changed, v.trySet path written = .ok changed →
      changed = (v.enter path.segments written).2 ∧
      (∀ noted ∈ (v.enter path.segments written).1, noted.length ≤ greatestLength →
        noted.index + 1 ≤ Decimal.greatestIndex) ∧
      ∀ before segment rest items, path.segments = before ++ segment :: rest →
        changed.walk? before = some (array items) →
          items.length ≤
            (((v.walk? before).bind asArray).getD []).length + maxArrayPadding + 1 := by
  refine ⟨fun refused => ?_, fun refused failure => by rw [set, failure], ?_⟩
  · rw [← refusal?_eq, trySet]
    cases v.refusal? path.segments <;> simp
  · rintro changed success
    obtain ⟨unrefused, rfl⟩ := trySet_eq_ok.mp success
    rw [refusal?_eq path.segments v written, Option.map_eq_none_iff] at unrefused
    have near : ∀ noted ∈ (v.enter path.segments written).1,
        noted.index ≤ noted.length + maxArrayPadding := by
      intro noted member
      have bound := List.find?_eq_none.mp unrefused noted member
      simpa [Indexing.far] using bound
    refine ⟨(enter_snd _ _ _).symm, fun noted member length => ?_, ?_⟩
    · have bound := near noted member
      simp only [greatestLength, maxArrayPadding, Decimal.greatestIndex] at *
      omega
    · rintro before segment rest items parts there
      rw [parts, walk?_put_append] at there
      obtain ⟨noted, indexed, length, longest⟩ := length_put (Option.some.inj there)
      have member : noted ∈ (v.enter path.segments written).1 := by
        rw [parts, enter_append, enter_cons, indexed]
        simp
      have bound := near noted member
      rw [← getD_asArray_getD, longest, ← length]
      omega

private def row : Value := .map [("row", .array [.int 1])]

/-- The nearest index out of reach is refused below a new map as well, and the furthest one within
reach pads the row by all that it may. -/
theorem trySet_reach_row :
    row.trySet ⟨[.key "row", .index 4098, .key "x"]⟩ (.int 2) = .error ⟨4098, 1⟩ ∧
      row.set ⟨[.key "row", .index 4098, .key "x"]⟩ (.int 2) = row ∧
      ∃ changed items, row.trySet ⟨[.key "row", .key "+4097", .key "x"]⟩ (.int 2) = .ok changed ∧
        changed.walk? [.key "row"] = some (.array items) ∧
          items.length ≤ 1 + maxArrayPadding + 1 := by
  obtain ⟨exactly, unchanged, -⟩ :=
    trySet_reach row ⟨[.key "row", .index 4098, .key "x"]⟩ (.int 2)
  obtain ⟨-, -, within⟩ := trySet_reach row ⟨[.key "row", .key "+4097", .key "x"]⟩ (.int 2)
  have refused := (exactly ⟨4098, 1⟩).mpr rfl
  have success : ∃ changed items,
      row.trySet ⟨[.key "row", .key "+4097", .key "x"]⟩ (.int 2) = .ok changed ∧
        changed.walk? [.key "row"] = some (.array items) := ⟨_, _, rfl, rfl⟩
  obtain ⟨changed, items, written, there⟩ := success
  obtain ⟨-, -, growth⟩ := within changed written
  exact ⟨refused, unchanged _ refused, changed, items, written, there,
    growth [.key "row"] _ _ items rfl there⟩

end Value

end Stencil
