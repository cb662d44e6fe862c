import Stencil.Value.Access

/-! # Laws of reading and writing along paths

A container has one place for every segment that fits it, and different spellings may name the same
place: a map goes by the text of a segment and an array by the index it stands for. One step of a
write changes what is at one place and keeps the container's shape. From what one step does follow
the laws of whole paths: a write is read back, writing what is there changes nothing, the second of
two writes counts, and a write disturbs no path that parts from its own.
-/

namespace Stencil

namespace Entries

variable {key : String} {change change' : Value → Value} {entries : List (String × Value)}

theorem update_update (key : String) (change change' : Value → Value)
    (entries : List (String × Value)) :
    update key change' (update key change entries) = update key (change' ∘ change) entries := by
  induction entries with
  | nil => simp [update]
  | cons entry rest ih =>
    obtain ⟨k, v⟩ := entry
    by_cases same : k = key
    · simp [update, same]
    · simp [update, same, ih]

/-- A change that leaves the value under the key as it is leaves all entries as they are. -/
theorem update_of_lookup {value : Value} (there : entries.lookup key = some value)
    (kept : change value = value) : update key change entries = entries := by
  induction entries with
  | nil => cases there
  | cons entry rest ih =>
    obtain ⟨k, v⟩ := entry
    by_cases same : k = key
    · subst same
      obtain rfl : v = value := by simpa using there
      rw [update, if_pos rfl, kept]
    · have other : (key == k) = false := beq_eq_false_iff_ne.mpr (Ne.symm same)
      rw [List.lookup_cons, other] at there
      rw [update, if_neg same, ih there]

/-- Only the value that was there, or null, is changed. -/
theorem update_eq_const (key : String) (change : Value → Value)
    (entries : List (String × Value)) :
    update key change entries =
      update key (fun _ => change ((entries.lookup key).getD .null)) entries := by
  induction entries with
  | nil => rfl
  | cons entry rest ih =>
    obtain ⟨k, v⟩ := entry
    by_cases same : k = key
    · subst same
      simp [update]
    · have other : (key == k) = false := beq_eq_false_iff_ne.mpr (Ne.symm same)
      rw [update, update, if_neg same, if_neg same, List.lookup_cons, other, ih]

end Entries

namespace Value

/-! ## Items of an array -/

section Items

variable {place other : Nat} {change change' : Value → Value} {items : List Value}

theorem length_changeItem (place : Nat) (change : Value → Value) (items : List Value) :
    (changeItem place change items).length = max items.length (place + 1) := by
  rw [changeItem, List.length_modify, List.length_append, List.length_replicate]
  omega

theorem getElem?_changeItem_self (place : Nat) (change : Value → Value) (items : List Value) :
    (changeItem place change items)[place]? = some (change (items[place]?.getD null)) := by
  rw [changeItem, List.getElem?_modify_eq]
  by_cases inside : place < items.length
  · rw [List.getElem?_append_left inside, List.getElem?_eq_getElem inside]
    rfl
  · have padded : place - items.length < place + 1 - items.length := by omega
    rw [List.getElem?_append_right (Nat.le_of_not_lt inside), List.getElem?_replicate_of_lt padded,
      List.getElem?_eq_none (Nat.le_of_not_lt inside)]
    rfl

/-- Any other item is what it was; one that padding adds is null, as what is absent reads. -/
theorem getD_changeItem_ne (different : other ≠ place) (change : Value → Value)
    (items : List Value) :
    (changeItem place change items)[other]?.getD null = items[other]?.getD null := by
  rw [changeItem, List.getElem?_modify_ne _ _ (Ne.symm different)]
  by_cases inside : other < items.length
  · rw [List.getElem?_append_left inside]
  · rw [List.getElem?_append_right (Nat.le_of_not_lt inside), List.getElem?_replicate,
      List.getElem?_eq_none (Nat.le_of_not_lt inside)]
    split <;> rfl

theorem changeItem_changeItem (place : Nat) (change change' : Value → Value)
    (items : List Value) :
    changeItem place change' (changeItem place change items) =
      changeItem place (change' ∘ change) items := by
  have long : place + 1 - (changeItem place change items).length = 0 := by
    rw [length_changeItem]
    omega
  rw [changeItem, long, List.replicate_zero, List.append_nil, changeItem, changeItem,
    List.modify_modify_eq]

theorem changeItem_of_getElem? {item : Value} (there : items[place]? = some item)
    (kept : change item = item) : changeItem place change items = items := by
  obtain ⟨inside, rfl⟩ := List.getElem?_eq_some_iff.mp there
  have none : place + 1 - items.length = 0 := by omega
  rw [changeItem, none, List.replicate_zero, List.append_nil]
  refine List.ext_getElem? fun i => ?_
  by_cases same : place = i
  · subst same
    rw [List.getElem?_modify_eq, there]
    exact congrArg some kept
  · exact List.getElem?_modify_ne _ _ same

/-- Only the item that was there, or null, is changed. -/
theorem changeItem_eq_const (place : Nat) (change : Value → Value) (items : List Value) :
    changeItem place change items =
      changeItem place (fun _ => change (items[place]?.getD null)) items := by
  refine List.ext_getElem? fun i => ?_
  by_cases same : place = i
  · subst same
    rw [getElem?_changeItem_self, getElem?_changeItem_self]
  · rw [changeItem, changeItem, List.getElem?_modify_ne _ _ same, List.getElem?_modify_ne _ _ same]

end Items

end Value

/-! ## Places in containers -/

/-- A place in a container: under a text in a map, at an index in an array. -/
inductive Address
  | name (text : String)
  | place (index : Nat)
  deriving DecidableEq, Repr

namespace Value

/-- The place that a segment names in a value, when the value is a container that it fits. -/
def address? (v : Value) (segment : Segment) : Option Address :=
  match v with
  | map _ => some (.name segment.name)
  | array _ => segment.place?.map .place
  | _ => none

variable {v child : Value} {segment segment' : Segment} {change : Value → Value}

/-- Segments that name one place lead to one child. -/
theorem child?_congr (same : v.address? segment = v.address? segment') :
    v.child? segment = v.child? segment' := by
  cases v with
  | map entries =>
    have name : segment.name = segment'.name := by simpa [address?] using same
    rw [child?, child?, name]
  | array items =>
    have place : segment.place? = segment'.place? :=
      Option.map_injective (fun _ _ => Address.place.inj) same
    rw [child?, child?, place]
  | _ => rfl

theorem child?_of_address? (unfit : v.address? segment = none) : v.child? segment = none := by
  cases v with
  | map entries => cases unfit
  | array items =>
    have none : segment.place? = none := Option.map_eq_none_iff.mp unfit
    rw [child?, none]
    rfl
  | _ => rfl

/-! ## One step of a write -/

/-- Forcing makes a container that the segment fits. -/
theorem address?_forced (v : Value) (segment : Segment) :
    ((v.forced segment).address? segment).isSome = true := by
  cases v with
  | map entries => rfl
  | array items =>
    cases segment with
    | index place => rfl
    | key name =>
      cases reads : Decimal.index? name with
      | none => simp [forced, reads, address?]
      | some place => simp [forced, reads, address?, Segment.place?]
  | _ => cases segment <;> rfl

/-- A container that the segment fits is left as it is. -/
theorem forced_of_address? (fits : (v.address? segment).isSome = true) :
    v.forced segment = v := by
  cases v with
  | map entries => rfl
  | array items =>
    cases segment with
    | index place => rfl
    | key name =>
      have reads : (Decimal.index? name).isSome = true := by
        simpa [address?, Segment.place?] using fits
      simp [forced, reads]
  | _ => cases fits

/-- A fresh container is empty, so forcing shows no child that was not there. -/
theorem child?_forced (v : Value) (segment : Segment) :
    (v.forced segment).child? segment = v.child? segment := by
  cases fits : v.address? segment with
  | some address => rw [forced_of_address? (fits ▸ rfl)]
  | none =>
    rw [child?_of_address? fits]
    cases v with
    | map entries => cases fits
    | array items =>
      cases segment with
      | index place => cases fits
      | key name =>
        have reads : Decimal.index? name = none := by simpa [address?, Segment.place?] using fits
        simp [forced, reads, child?]
    | _ => cases segment <;> rfl

/-- A changed container has the same places. -/
theorem address?_changeChild (v : Value) (segment segment' : Segment) (change : Value → Value) :
    (v.changeChild segment change).address? segment' = v.address? segment' := by
  cases v with
  | array items =>
    rw [changeChild]
    cases segment.place? <;> rfl
  | _ => rfl

theorem child?_changeChild_self (fits : (v.address? segment).isSome = true)
    (change : Value → Value) :
    (v.changeChild segment change).child? segment =
      some (change ((v.child? segment).getD null)) := by
  cases v with
  | map entries => exact Entries.lookup_update_self _ _ _
  | array items =>
    cases place : segment.place? with
    | none => simp [address?, place] at fits
    | some index =>
      simp only [changeChild, child?, place, Option.bind_some]
      exact getElem?_changeItem_self index change items
  | _ => cases fits

/-- What is at another place reads as before. -/
theorem child?_changeChild_ne {address address' : Address}
    (here : v.address? segment = some address) (there : v.address? segment' = some address')
    (different : address ≠ address') (change : Value → Value) :
    ((v.changeChild segment change).child? segment').getD null =
      (v.child? segment').getD null := by
  cases v with
  | map entries =>
    obtain rfl := Option.some.inj here
    obtain rfl := Option.some.inj there
    have names : segment'.name ≠ segment.name := fun same => different (by rw [same])
    rw [changeChild, child?, child?, Entries.lookup_update_ne change entries names]
  | array items =>
    obtain ⟨index, place, rfl⟩ := Option.map_eq_some_iff.mp here
    obtain ⟨index', place', rfl⟩ := Option.map_eq_some_iff.mp there
    have indexes : index' ≠ index := fun same => different (by rw [same])
    simp only [changeChild, child?, place, place', Option.bind_some]
    exact getD_changeItem_ne indexes change items
  | _ => cases here

theorem changeChild_changeChild (v : Value) (segment : Segment) (change change' : Value → Value) :
    (v.changeChild segment change).changeChild segment change' =
      v.changeChild segment (change' ∘ change) := by
  cases v with
  | map entries => exact congrArg map (Entries.update_update _ _ _ _)
  | array items =>
    simp only [changeChild]
    cases segment.place? with
    | none => rfl
    | some index => exact congrArg array (changeItem_changeItem _ _ _ _)
  | _ => rfl

/-- A change that leaves the child as it is leaves the container as it is. -/
theorem changeChild_of_child? (there : v.child? segment = some child)
    (kept : change child = child) : v.changeChild segment change = v := by
  cases v with
  | map entries => exact congrArg map (Entries.update_of_lookup there kept)
  | array items =>
    obtain ⟨index, place, item⟩ := Option.bind_eq_some_iff.mp there
    simp only [changeChild, place]
    exact congrArg array (changeItem_of_getElem? item kept)
  | _ => cases there

/-- Only the child that was there, or null, is changed. -/
theorem changeChild_eq_const (v : Value) (segment : Segment) (change : Value → Value) :
    v.changeChild segment change =
      v.changeChild segment fun _ => change ((v.child? segment).getD null) := by
  cases v with
  | map entries => exact congrArg map (Entries.update_eq_const _ _ _)
  | array items =>
    simp only [changeChild, child?]
    cases segment.place? with
    | none => rfl
    | some index => exact congrArg array (changeItem_eq_const _ _ _)
  | _ => rfl

theorem address?_of_child? (there : v.child? segment = some child) :
    (v.address? segment).isSome = true := by
  cases fits : v.address? segment with
  | some address => rfl
  | none =>
    rw [child?_of_address? fits] at there
    cases there

/-! ## Whole paths -/

variable {rest : List Segment} {written : Value}

/-- A write goes on to the child under its first segment, or to null where there is none. -/
theorem child?_put (v : Value) (segment : Segment) (rest : List Segment) (written : Value) :
    (v.put (segment :: rest) written).child? segment =
      some (((v.child? segment).getD null).put rest written) := by
  rw [put, child?_changeChild_self (v.address?_forced segment), child?_forced]

/-- A write leaves a container that the segment fits. -/
theorem forced_put (v : Value) (segment : Segment) (rest : List Segment) (written : Value) :
    (v.put (segment :: rest) written).forced segment = v.put (segment :: rest) written := by
  refine forced_of_address? ?_
  rw [put, address?_changeChild]
  exact v.address?_forced segment

theorem getD_walk?_null (segments : List Segment) : (null.walk? segments).getD null = null := by
  cases segments <;> rfl

/-- An absent child reads as a null one. -/
theorem getD_walk?_cons (v : Value) (segment : Segment) (rest : List Segment) :
    (v.walk? (segment :: rest)).getD null =
      (((v.child? segment).getD null).walk? rest).getD null := by
  rw [walk?]
  cases v.child? segment with
  | none => exact (getD_walk?_null rest).symm
  | some child => rfl

/-- On its way a write leaves at each place what the rest of it makes of what was there. -/
theorem walk?_put_append (before after : List Segment) (v written : Value) :
    (v.put (before ++ after) written).walk? before =
      some (((v.walk? before).getD null).put after written) := by
  induction before generalizing v with
  | nil => rfl
  | cons segment before ih =>
    rw [getD_walk?_cons, ← ih, walk?, List.cons_append, child?_put]
    rfl

/-- What is put at a path is read there. -/
theorem walk?_put (segments : List Segment) (v written : Value) :
    (v.put segments written).walk? segments = some written := by
  have whole := walk?_put_append segments [] v written
  rwa [List.append_nil] at whole

/-- To put what is there changes nothing. -/
theorem put_of_walk? {segments : List Segment} {v found : Value}
    (there : v.walk? segments = some found) : v.put segments found = v := by
  induction segments generalizing v with
  | nil => exact (Option.some.inj there).symm
  | cons segment rest ih =>
    obtain ⟨child, step, further⟩ := Option.bind_eq_some_iff.mp there
    rw [put, forced_of_address? (address?_of_child? step)]
    exact changeChild_of_child? step (ih further)

/-- The last of two writes stays. -/
theorem put_put (segments : List Segment) (v written written' : Value) :
    (v.put segments written).put segments written' = v.put segments written' := by
  induction segments generalizing v with
  | nil => rfl
  | cons segment rest ih =>
    rw [put, forced_put, put, changeChild_changeChild, put]
    exact congrArg _ (funext fun child => ih child)

/-- Nothing that is there is out of reach. -/
theorem refusal?_of_walk? {segments : List Segment} {v found : Value}
    (there : v.walk? segments = some found) : v.refusal? segments = none := by
  induction segments generalizing v with
  | nil => rfl
  | cons segment rest ih =>
    obtain ⟨child, step, further⟩ := Option.bind_eq_some_iff.mp there
    have onward := ih further
    cases v with
    | map entries =>
      have unindexed : (map entries).indexed? segment = none := by cases segment <;> rfl
      have entry : entries.lookup segment.name = some child := step
      simpa only [refusal?, unindexed, entry, Option.getD_some] using onward
    | array items =>
      obtain ⟨index, place, item⟩ := Option.bind_eq_some_iff.mp step
      have indexed : (array items).indexed? segment = some index := by
        cases segment <;> exact place
      have inside := (List.getElem?_eq_some_iff.mp item).1
      have near : ¬ index > items.length + maxArrayPadding := by omega
      simpa only [refusal?, indexed, asArray, Option.getD_some, if_neg near, item] using onward
    | _ => cases step

/-- A write succeeds where nothing refuses it, and then puts the value. -/
theorem trySet_eq_ok {v written changed : Value} {path : Path} :
    v.trySet path written = .ok changed ↔
      v.refusal? path.segments = none ∧ v.put path.segments written = changed := by
  rw [trySet]
  cases v.refusal? path.segments with
  | none => simp
  | some refused => simp

/-- What is written at a path is read back there, and writing once more gives what writing only
then would have given. Writing what is already there succeeds and changes nothing. -/
theorem trySet_lawful (v : Value) (path : Path) (written : Value) :
    (∀ changed, v.trySet path written = .ok changed →
      changed.lookup path = some written ∧
        ∀ later, ∃ final, changed.trySet path later = .ok final ∧
          v.trySet path later = .ok final) ∧
    (v.lookup path = some written → v.trySet path written = .ok v) := by
  constructor
  · rintro changed success
    obtain ⟨near, rfl⟩ := trySet_eq_ok.mp success
    have found := walk?_put path.segments v written
    refine ⟨found, fun later => ⟨v.put path.segments later, ?_, trySet_eq_ok.mpr ⟨near, rfl⟩⟩⟩
    exact trySet_eq_ok.mpr ⟨refusal?_of_walk? found, put_put _ _ _ _⟩
  · intro there
    exact trySet_eq_ok.mpr ⟨refusal?_of_walk? there, put_of_walk? there⟩

/-- A list in a map, of which the first item is a map. -/
private def listing : Value := .map [("list", .array [.map [("05", .int 7)], .int 1])]

/-- The name of the list and a key that reads as the index behind its items. -/
private def behind : Path := ⟨[.key "list", .key "+3", .index 5]⟩

/-- A write that pads the list is read back; a key of digits is found in the map of the list. -/
theorem trySet_lawful_padded :
    (∃ changed final, listing.trySet behind (.bool true) = .ok changed ∧
      changed.lookup behind = some (.bool true) ∧ changed.trySet behind .null = .ok final ∧
        listing.trySet behind .null = .ok final) ∧
    listing.trySet ⟨[.key "list", .key "00", .key "05"]⟩ (.int 7) = .ok listing := by
  obtain ⟨back, -⟩ := trySet_lawful listing behind (.bool true)
  obtain ⟨-, kept⟩ := trySet_lawful listing ⟨[.key "list", .key "00", .key "05"]⟩ (.int 7)
  have success : ∃ changed, listing.trySet behind (.bool true) = .ok changed := ⟨_, rfl⟩
  obtain ⟨changed, written⟩ := success
  obtain ⟨found, again⟩ := back changed written
  obtain ⟨final, after, directly⟩ := again .null
  exact ⟨⟨changed, final, written, found, after, directly⟩, kept rfl⟩

/-! ## Paths that part -/

/-- Two paths go through the same places of a value up to a container, and to different places of
that container. -/
inductive Parts : Value → List Segment → List Segment → Prop
  | here {v : Value} {segment segment' : Segment} {address address' : Address}
      {rest rest' : List Segment} (one : v.address? segment = some address)
      (other : v.address? segment' = some address') (different : address ≠ address') :
      Parts v (segment :: rest) (segment' :: rest')
  | later {v child : Value} {segment segment' : Segment} {address : Address}
      {rest rest' : List Segment} (one : v.address? segment = some address)
      (other : v.address? segment' = some address) (there : v.child? segment = some child)
      (onward : Parts child rest rest') : Parts v (segment :: rest) (segment' :: rest')

/-- A write is not seen along a path that parts from its own. -/
theorem Parts.walk?_put {v : Value} {segments segments' : List Segment}
    (parts : Parts v segments segments') (written : Value) :
    ((v.put segments written).walk? segments').getD null = (v.walk? segments').getD null := by
  induction parts with
  | here one other different =>
    rw [getD_walk?_cons, getD_walk?_cons, put, forced_of_address? (one ▸ rfl),
      child?_changeChild_ne one other different]
  | @later v child segment segment' address rest rest' one other there onward ih =>
    have same : v.address? segment = v.address? segment' := one.trans other.symm
    have fits : (v.address? segment).isSome = true := one ▸ rfl
    have there' : v.child? segment' = some child := (child?_congr same).symm.trans there
    have changed : (v.put (segment :: rest) written).child? segment' =
        some (child.put rest written) := by
      have kept : (v.put (segment :: rest) written).address? segment =
          (v.put (segment :: rest) written).address? segment' := by
        rw [put, forced_of_address? fits, address?_changeChild, address?_changeChild, same]
      rw [← child?_congr kept, child?_put, there]
      rfl
    rw [getD_walk?_cons, getD_walk?_cons, changed, there']
    exact ih

/-- A write leaves what is read along every path that parts from its own, also where it pads an
array that both go through or makes containers of what was there. -/
theorem trySet_leaves {v written changed : Value} {path other : Path}
    (parts : v.Parts path.segments other.segments)
    (success : v.trySet path written = .ok changed) : changed.get other = v.get other := by
  obtain ⟨-, rfl⟩ := trySet_eq_ok.mp success
  exact parts.walk?_put written

/-- The path to the padded item parts from any path to another item. -/
private theorem behind_parts {segment : Segment} {index : Nat} (place : segment.place? = some index)
    (different : Address.place 3 ≠ .place index) (rest : List Segment) :
    listing.Parts behind.segments (.key "list" :: segment :: rest) := by
  refine .later rfl rfl rfl (.here rfl ?_ different)
  exact congrArg (Option.map Address.place) place

/-- Padding adds an item that reads as it did when it was absent, and the first item stays. -/
theorem trySet_leaves_padded : ∃ changed, listing.trySet behind (.bool true) = .ok changed ∧
    changed.get ⟨[.key "list", .index 2]⟩ = .null ∧
      changed.get ⟨[.key "list", .key "00", .key "05"]⟩ = .int 7 := by
  have success : ∃ changed, listing.trySet behind (.bool true) = .ok changed := ⟨_, rfl⟩
  obtain ⟨changed, written⟩ := success
  have padded : listing.Parts behind.segments [.key "list", .index 2] :=
    behind_parts rfl (by decide) []
  have first : listing.Parts behind.segments [.key "list", .key "00", .key "05"] :=
    behind_parts rfl (by decide) [.key "05"]
  exact ⟨changed, written, trySet_leaves padded written, trySet_leaves first written⟩

end Value

end Stencil
