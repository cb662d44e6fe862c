import Stencil.Proofs.Encoding.Values
import Stencil.Proofs.Value.Writing

/-! # Pieces of host data

Host data is encoded piece by piece. A piece of it that is encoded by itself to a value comes to lie
as that value at a place of the whole, and is of no influence on what lies around it. For a value
among the host data this is the value itself, when there is nothing deferred in it.
-/

namespace Stencil.HostData

variable {w : Value}

/-! ## Places -/

/-- Host data with room for a piece, and the path at which what the piece is encoded to comes to lie
in what the whole is encoded to. A later entry of a map must not have the same text as its key. -/
inductive Place : (HostData → HostData) → List Segment → Prop
  | here : Place (fun piece => piece) []
  | present {whole : HostData → HostData} {path : List Segment} (inside : Place whole path) :
      Place (fun piece => .present (whole piece)) path
  | wrapper {whole : HostData → HostData} {path : List Segment} (name : String)
      (inside : Place whole path) : Place (fun piece => .wrapper name (whole piece)) path
  | wrapperVariant {whole : HostData → HostData} {path : List Segment} (variant : String)
      (inside : Place whole path) :
      Place (fun piece => .wrapperVariant variant (whole piece)) (.key variant :: path)
  | sequence {whole : HostData → HostData} {path : List Segment} (before after : List HostData)
      (inside : Place whole path) :
      Place (fun piece => .sequence (before ++ whole piece :: after)) (.index before.length :: path)
  | tuple {whole : HostData → HostData} {path : List Segment} (before after : List HostData)
      (inside : Place whole path) :
      Place (fun piece => .tuple (before ++ whole piece :: after)) (.index before.length :: path)
  | tupleRecord {whole : HostData → HostData} {path : List Segment} (name : String)
      (before after : List HostData) (inside : Place whole path) :
      Place (fun piece => .tupleRecord name (before ++ whole piece :: after))
        (.index before.length :: path)
  | tupleVariant {whole : HostData → HostData} {path : List Segment} (variant : String)
      (before after : List HostData) (inside : Place whole path) :
      Place (fun piece => .tupleVariant variant (before ++ whole piece :: after))
        (.key variant :: .index before.length :: path)
  | map {whole : HostData → HostData} {path : List Segment} {key : HostData} {name : String}
      (before after : List (HostData × HostData)) (named : key.keyName = .ok name)
      (last : ∀ entry ∈ after, entry.1.keyName ≠ .ok name) (inside : Place whole path) :
      Place (fun piece => .map (before ++ (key, whole piece) :: after)) (.key name :: path)
  | record {whole : HostData → HostData} {path : List Segment} (name field : String)
      (before after : List (String × HostData)) (last : ∀ other ∈ after, other.1 ≠ field)
      (inside : Place whole path) :
      Place (fun piece => .record name (before ++ (field, whole piece) :: after))
        (.key field :: path)
  | recordVariant {whole : HostData → HostData} {path : List Segment} (variant field : String)
      (before after : List (String × HostData)) (last : ∀ other ∈ after, other.1 ≠ field)
      (inside : Place whole path) :
      Place (fun piece => .recordVariant variant (before ++ (field, whole piece) :: after))
        (.key variant :: .key field :: path)

section

variable {piece other : HostData} {change : Value → Value}

/-- Changing one item of a sequence changes one value, in the place of the item. -/
theorem encodeItems_middle (same : piece.encode = other.encode.map change)
    (before after : List HostData) : encodeItems (before ++ piece :: after) =
      (encodeItems (before ++ other :: after)).map (List.modify · before.length change) := by
  induction before with
  | nil =>
    rw [List.nil_append, List.nil_append, encodeItems, encodeItems, same]
    cases other.encode with
    | error e => rfl
    | ok w => cases encodeItems after <;> rfl
  | cons first rest ih =>
    rw [List.cons_append, List.cons_append, encodeItems, encodeItems, ih]
    cases first.encode with
    | error e => rfl
    | ok w => cases encodeItems (rest ++ other :: after) <;> rfl

/-- An entry that nothing later replaces may be changed before the others are added. -/
theorem encodeEntries_update {name : String} {after : List (HostData × HostData)}
    (last : ∀ entry ∈ after, entry.1.keyName ≠ .ok name) {done : List (String × Value)}
    (present : (done.lookup name).isSome = true) :
    encodeEntries after (Entries.update name change done) =
      (encodeEntries after done).map (Entries.update name change) := by
  induction after generalizing done with
  | nil => rfl
  | cons entry rest ih =>
    obtain ⟨key, item⟩ := entry
    obtain ⟨first, others⟩ := List.forall_mem_cons.mp last
    rw [encodeEntries_cons, encodeEntries_cons]
    cases named : key.keyName with
    | error e => rfl
    | ok k =>
      cases item.encode with
      | error e => rfl
      | ok w =>
        have differs : k ≠ name := fun same => first (same ▸ named)
        have kept : ((Entries.insert done k w).lookup name).isSome = true := by
          rwa [Entries.insert, Entries.lookup_update_ne _ _ (Ne.symm differs)]
        have written : Entries.insert (Entries.update name change done) k w =
            Entries.update name change (Entries.insert done k w) :=
          Entries.insert_update differs present w
        change encodeEntries rest (Entries.insert (Entries.update name change done) k w) = _
        rw [written]
        exact ih others kept

/-- Changing one entry that nothing later replaces changes the value under its key. -/
theorem encodeEntries_middle {key : HostData} {name : String} (named : key.keyName = .ok name)
    (same : piece.encode = other.encode.map change) (before : List (HostData × HostData))
    {after : List (HostData × HostData)} (last : ∀ entry ∈ after, entry.1.keyName ≠ .ok name)
    (done : List (String × Value)) : encodeEntries (before ++ (key, piece) :: after) done =
      (encodeEntries (before ++ (key, other) :: after) done).map (Entries.update name change) := by
  induction before generalizing done with
  | nil =>
    rw [List.nil_append, List.nil_append, encodeEntries_cons, encodeEntries_cons, named, same]
    cases other.encode with
    | error e => rfl
    | ok w =>
      have written : Entries.insert done name (change w) =
          Entries.update name change (Entries.insert done name w) := by
        rw [Entries.insert, Entries.insert, Entries.update_update]
        rfl
      have present : ((Entries.insert done name w).lookup name).isSome = true := by
        rw [Entries.insert, Entries.lookup_update_self]
        rfl
      change encodeEntries after (Entries.insert done name (change w)) = _
      rw [written]
      exact encodeEntries_update last present
  | cons entry rest ih =>
    rw [List.cons_append, List.cons_append, encodeEntries_cons, encodeEntries_cons]
    cases entry.1.keyName with
    | error e => rfl
    | ok k =>
      cases entry.2.encode with
      | error e => rfl
      | ok w => exact ih _

/-- The fields of a record are the entries of a map with their names as keys. -/
theorem encodeFields_eq (fields : List (String × HostData)) (done : List (String × Value)) :
    encodeFields fields done =
      encodeEntries (fields.map fun field => (text field.1, field.2)) done := by
  induction fields generalizing done with
  | nil => rfl
  | cons field rest ih =>
    rw [encodeFields, List.map_cons, encodeEntries_text]
    exact congrArg _ (funext fun w => ih _)

/-! ### Pieces of one level -/

/-- A tuple is encoded as the sequence of its items. -/
theorem encode_tuple (items : List HostData) : (tuple items).encode = (sequence items).encode := by
  rw [encode, encode]

theorem encode_tupleRecord (name : String) (items : List HostData) :
    (tupleRecord name items).encode = (sequence items).encode := by
  rw [encode, encode]

theorem encode_tupleVariant (variant : String) (items : List HostData) :
    (tupleVariant variant items).encode = (wrapperVariant variant (sequence items)).encode := by
  rw [encode, encode, encode, bind_assoc]
  rfl

/-- A record is encoded as the map of its fields. -/
theorem encode_record (name : String) (fields : List (String × HostData)) :
    (record name fields).encode =
      (map (fields.map fun field => (text field.1, field.2))).encode := by
  rw [encode, encode, encodeFields_eq]

/-- A variant with fields is encoded as one around a record. -/
theorem encode_recordVariant (variant : String) (fields : List (String × HostData)) :
    (recordVariant variant fields).encode =
      (wrapperVariant variant (record variant fields)).encode := by
  rw [encode, encode, encode, bind_assoc]
  rfl

variable {path : List Segment}

theorem wrapperVariant_piece (same : piece.encode = other.encode.map (·.put path w))
    (variant : String) : (wrapperVariant variant piece).encode =
      (wrapperVariant variant other).encode.map (·.put (.key variant :: path) w) := by
  rw [encode, encode, same]
  cases other.encode with
  | error e => rfl
  | ok u =>
    have written : (oneEntry variant u).put (.key variant :: path) w =
        oneEntry variant (u.put path w) := by
      simp [oneEntry, Value.put, Value.forced, Value.changeChild, Segment.name, Entries.update]
    exact congrArg Except.ok written.symm

/-- A part of an item is a part of the sequence under the place of the item. -/
theorem sequence_piece (same : piece.encode = other.encode.map (·.put path w))
    (before after : List HostData) : (sequence (before ++ piece :: after)).encode =
      (sequence (before ++ other :: after)).encode.map
        (·.put (.index before.length :: path) w) := by
  rw [encode, encode, encodeItems_middle same]
  cases encoded : encodeItems (before ++ other :: after) with
  | error e => rfl
  | ok ws =>
    have length := (encodeItems_ok encoded).length_eq
    rw [List.length_append, List.length_cons] at length
    have inside : before.length + 1 - ws.length = 0 := by omega
    have written : (Value.array ws).put (.index before.length :: path) w =
        .array (ws.modify before.length (·.put path w)) := by
      simp [Value.put, Value.forced, Value.changeChild, Segment.place?, Value.changeItem, inside]
    exact congrArg Except.ok written.symm

/-- A part of an entry is a part of the map under its key, if no later entry has that key. -/
theorem map_piece {key : HostData} {name : String} (named : key.keyName = .ok name)
    (same : piece.encode = other.encode.map (·.put path w))
    (before : List (HostData × HostData)) {after : List (HostData × HostData)}
    (last : ∀ entry ∈ after, entry.1.keyName ≠ .ok name) :
    (map (before ++ (key, piece) :: after)).encode =
      (map (before ++ (key, other) :: after)).encode.map (·.put (.key name :: path) w) := by
  rw [encode, encode, encodeEntries_middle named same before last]
  cases encodeEntries (before ++ (key, other) :: after) [] <;> rfl

theorem record_piece {field : String} (name : String)
    (same : piece.encode = other.encode.map (·.put path w))
    (before : List (String × HostData)) {after : List (String × HostData)}
    (last : ∀ other ∈ after, other.1 ≠ field) :
    (record name (before ++ (field, piece) :: after)).encode =
      (record name (before ++ (field, other) :: after)).encode.map
        (·.put (.key field :: path) w) := by
  rw [encode_record, encode_record, List.map_append, List.map_append, List.map_cons, List.map_cons]
  refine map_piece (keyName_text field) same _ (List.forall_mem_map.mpr ?_)
  intro other member named
  rw [keyName_text] at named
  exact last other member (Except.ok.inj named)

/-- A piece at its place is encoded as it is by itself, and what else there is as without it. -/
theorem encode_at {whole : HostData → HostData} {path : List Segment} (place : Place whole path)
    (encoded : piece.encode = .ok w) :
    (whole piece).encode = (whole .unit).encode.map (·.put path w) := by
  induction place with
  | here =>
    rw [encoded, encode]
    rfl
  | present _ ih | wrapper _ _ ih => rw [encode, encode, ih]
  | wrapperVariant variant _ ih => exact wrapperVariant_piece ih variant
  | sequence before after _ ih => exact sequence_piece ih before after
  | tuple before after _ ih =>
    rw [encode_tuple, encode_tuple]
    exact sequence_piece ih before after
  | tupleRecord name before after _ ih =>
    rw [encode_tupleRecord, encode_tupleRecord]
    exact sequence_piece ih before after
  | tupleVariant variant before after _ ih =>
    rw [encode_tupleVariant, encode_tupleVariant]
    exact wrapperVariant_piece (sequence_piece ih before after) variant
  | map before after named last _ ih => exact map_piece named ih before last
  | record name field before after last _ ih => exact record_piece name ih before last
  | recordVariant variant field before after last _ ih =>
    rw [encode_recordVariant, encode_recordVariant]
    exact wrapperVariant_piece (record_piece variant ih before last) variant

end

/-- The encoder and the resolver agree on values. A value is encoded unless computing its lazy parts
leads to something pending, which is the only failure there is. What comes out is whole and is what
resolving the value gives to everybody. So a whole value comes out as it is; and inside of other
host data it comes to lie as it is at its place, where it neither helps nor hinders what is around
it. -/
theorem encode_resolves (v : Value) (keyed : v.Keyed) :
    ((∃ w, (ofValue v).encode = .ok w) ↔ ¬ v.MeetsPending) ∧
    (v.MeetsPending → (ofValue v).encode = .error .pending) ∧
    (∀ w, (ofValue v).encode = .ok w → v.Resolves w ∧ w.needsResolution = false) ∧
    (v.needsResolution = false → (ofValue v).encode = .ok v ∧
      ∀ whole path, Place whole path →
        (whole (ofValue v)).encode = (whole .unit).encode.map (·.put path v) ∧
        ∀ w, (whole (ofValue v)).encode = .ok w → w.walk? path = some v) := by
  have success : ¬ v.MeetsPending → ∃ w, (ofValue v).encode = .ok w := by
    intro free
    cases encoded : (ofValue v).encode with
    | ok w => exact ⟨w, rfl⟩
    | error e => exact absurd (encode_ofValue_error encoded).2 free
  have resolves (w : Value) (encoded : (ofValue v).encode = .ok w) : v.Resolves w :=
    Value.resolves_iff_computed.mpr (computed_of_encode keyed encoded)
  refine ⟨⟨fun ⟨w, encoded⟩ => not_meetsPending_of_encode encoded, success⟩, fun meets => ?_,
    fun w encoded => ⟨resolves w encoded, (resolves w encoded).whole⟩, fun whole => ?_⟩
  · cases encoded : (ofValue v).encode with
    | ok w => exact absurd meets (not_meetsPending_of_encode encoded)
    | error e => rw [(encode_ofValue_error encoded).1]
  · have free : ¬ v.MeetsPending := by
      rintro ⟨handle, delay, note, outcome, meets⟩
      exact Bool.noConfusion (whole.symm.trans (meets.needsResolution rfl))
    obtain ⟨w, encoded⟩ := success free
    cases (resolves w encoded).unique (Value.resolves_of_whole whole)
    refine ⟨encoded, fun data path place => ?_⟩
    have nested := encode_at place encoded
    refine ⟨nested, fun w' encoded' => ?_⟩
    rw [nested] at encoded'
    cases around : (data .unit).encode with
    | error e =>
      rw [around] at encoded'
      cases encoded'
    | ok u =>
      rw [around] at encoded'
      cases encoded'
      exact Value.walk?_put path u v

/-- A value with lazy parts, one of them inside of an array. -/
def lazyListing : Value :=
  .map [("name", .lazy (.host 0) (.string "list")),
    ("items", .array [.int 1, .lazy (.host 1) (.map [("last", .bool true)])])]

/-- The same value with its lazy parts computed. -/
def computedListing : Value :=
  .map [("name", .string "list"), ("items", .array [.int 1, .map [("last", .bool true)]])]

/-- Lazy parts in a map and an array are computed, and the rest of the value stays. -/
theorem encode_resolves_listing : lazyListing.Keyed ∧
    (ofValue lazyListing).encode = .ok computedListing ∧ lazyListing.Resolves computedListing := by
  have keyed : lazyListing.Keyed := by
    simp only [lazyListing, Value.keyed_map, Value.keyed_array, Value.keyed_lazy,
      List.forall_mem_cons, List.not_mem_nil, false_implies, implies_true, and_true]
    refine ⟨by decide, ?_, ?_, by decide, ?_⟩ <;> rintro _ ⟨⟩
  have encoded : (ofValue lazyListing).encode = .ok computedListing := rfl
  obtain ⟨-, -, resolves, -⟩ := encode_resolves lazyListing keyed
  exact ⟨keyed, encoded, (resolves _ encoded).1⟩

end Stencil.HostData
