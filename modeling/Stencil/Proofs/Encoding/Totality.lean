import Mathlib.Logic.Relation
import Stencil.Proofs.Encoding.Pieces

/-! # What can be encoded

Host data is put together from pieces. Encoding fails only at a piece that fails by itself, or at a
map with a key that has no text, and wherever there is no such piece it succeeds. A map is written
in two steps for each entry, and between them the text of the key waits for its value; as long as
the steps take turns there is always a key that waits.
-/

namespace Stencil

namespace Value

/-- Nothing deferred, and without a text: what a key must not be encoded to. -/
inductive Textless : Value → Prop
  | null : Textless .null
  | bytes {data : List UInt8} (invalid : Utf8.decode? data = none) : Textless (.bytes data)
  | array (items : List Value) : Textless (.array items)
  | map (entries : List (String × Value)) : Textless (.map entries)

/-- The value is not itself deferred, whatever is inside of it. -/
def Given : Value → Prop
  | pending .. | lazy .. => False
  | _ => True

/-- A value that data can give has no text just when its shape has none. -/
theorem asString_eq_none_iff {value : Value} (given : value.Given) :
    value.asString = none ↔ value.Textless := by
  constructor
  · intro none
    cases value with
    | null => exact .null
    | bytes data => exact .bytes none
    | array items => exact .array items
    | map entries => exact .map entries
    | pending | «lazy» => exact given.elim
    | _ => cases none
  · rintro (_ | invalid | _ | _)
    · rfl
    · exact invalid
    · rfl
    · rfl

/-- An integer of any width keeps its digits. -/
theorem asString_ofInteger (i : Int) : (ofInteger i).asString = some (toString i) := by
  unfold ofInteger
  cases fits : Decimal.fit? i with
  | none => rfl
  | some n =>
    have same : n.toInt = i := by
      unfold Decimal.fit? at fits
      split_ifs at fits with bounds
      cases fits
      exact Int64.toInt_ofInt_of_le (by omega) (by omega)
    rw [asString, same]

end Value

namespace HostData

variable {data : HostData} {items : List HostData} {entries : List (HostData × HostData)}

/-! ## Pieces -/

/-- The second is what the first is put together from, alone or with others. Keys of a map are
pieces of it as well as the values under them. -/
inductive Piece : HostData → HostData → Prop
  | present (inner : HostData) : Piece (.present inner) inner
  | wrapper (name : String) (inner : HostData) : Piece (.wrapper name inner) inner
  | wrapperVariant (variant : String) (inner : HostData) :
      Piece (.wrapperVariant variant inner) inner
  | sequence {items : List HostData} {item : HostData} (member : item ∈ items) :
      Piece (.sequence items) item
  | tuple {items : List HostData} {item : HostData} (member : item ∈ items) :
      Piece (.tuple items) item
  | tupleRecord {name : String} {items : List HostData} {item : HostData} (member : item ∈ items) :
      Piece (.tupleRecord name items) item
  | tupleVariant {variant : String} {items : List HostData} {item : HostData}
      (member : item ∈ items) : Piece (.tupleVariant variant items) item
  | key {entries : List (HostData × HostData)} {entry : HostData × HostData}
      (member : entry ∈ entries) : Piece (.map entries) entry.1
  | value {entries : List (HostData × HostData)} {entry : HostData × HostData}
      (member : entry ∈ entries) : Piece (.map entries) entry.2
  | record {name : String} {fields : List (String × HostData)} {field : String × HostData}
      (member : field ∈ fields) : Piece (.record name fields) field.2
  | recordVariant {variant : String} {fields : List (String × HostData)}
      {field : String × HostData} (member : field ∈ fields) :
      Piece (.recordVariant variant fields) field.2

/-- The second is the first, or a piece of it at some depth. -/
def Holds : HostData → HostData → Prop := Relation.ReflTransGen Piece

theorem Piece.sizeOf_lt {piece : HostData} (inside : data.Piece piece) :
    sizeOf piece < sizeOf data := by
  cases inside with
  | present | wrapper | wrapperVariant =>
    simp only [present.sizeOf_spec, wrapper.sizeOf_spec, wrapperVariant.sizeOf_spec]
    omega
  | sequence member | tuple member | tupleRecord member | tupleVariant member =>
    have smaller := List.sizeOf_lt_of_mem member
    simp only [sequence.sizeOf_spec, tuple.sizeOf_spec, tupleRecord.sizeOf_spec,
      tupleVariant.sizeOf_spec]
    omega
  | @key entries entry member | @value entries entry member =>
    have smaller := List.sizeOf_lt_of_mem member
    obtain ⟨key, item⟩ := entry
    simp only [map.sizeOf_spec, Prod.mk.sizeOf_spec] at smaller ⊢
    omega
  | @record _ fields field member | @recordVariant _ fields field member =>
    have smaller := List.sizeOf_lt_of_mem member
    obtain ⟨name, item⟩ := field
    simp only [record.sizeOf_spec, recordVariant.sizeOf_spec, Prod.mk.sizeOf_spec] at smaller ⊢
    omega

/-- What holds of host data when it holds of its pieces holds of all host data. -/
@[elab_as_elim]
theorem piece_induction {P : HostData → Prop}
    (step : ∀ data : HostData, (∀ piece, data.Piece piece → P piece) → P data) (data : HostData) :
    P data :=
  step data fun piece _ => piece_induction step piece
termination_by sizeOf data
decreasing_by exact Piece.sizeOf_lt ‹_›

/-! ## Where encoding fails -/

def Succeeds (data : HostData) : Prop := ∃ w, data.encode = .ok w

/-- The data fails by itself, whatever its pieces are encoded to: it states a failure, it gives a
value without a key, or it has a key without a text. -/
inductive Fails : HostData → EncodeFault → Prop
  | failure (fault : EncodeFault) : Fails (.failure fault) fault
  | keylessValue (inner : HostData) : Fails (.keylessValue inner) .valueBeforeKey
  | key {entries : List (HostData × HostData)} {entry : HostData × HostData} {w : Value}
      (member : entry ∈ entries) (encoded : entry.1.encode = .ok w) (textless : w.Textless) :
      Fails (.map entries) (.mapKey w.typeName)

/-- Whatever data encode to is a value that they can give. -/
theorem given_of_encode {w : Value} (encoded : data.encode = .ok w) : w.Given := by
  induction data using piece_induction generalizing w with
  | step data ih =>
    cases data with
    | present inner | wrapper _ inner =>
      rw [encode] at encoded
      exact ih inner (by constructor) encoded
    | integer i =>
      rw [encode, Value.ofInteger] at encoded
      split at encoded <;> cases encoded <;> trivial
    | keylessValue | failure =>
      rw [encode] at encoded
      cases encoded
    | wrapperVariant | sequence | tuple | tupleRecord | tupleVariant | map | record |
        recordVariant =>
      rw [encode] at encoded
      obtain ⟨_, -, encoded⟩ := bind_eq_ok.mp encoded
      cases encoded
      trivial
    | _ =>
      rw [encode] at encoded
      cases encoded
      trivial

/-- A key without a text is the only one that has none as a key. -/
theorem keyText_error {w : Value} {e : EncodeFault} (given : w.Given)
    (failed : keyText w = .error e) : w.Textless ∧ e = .mapKey w.typeName := by
  unfold keyText at failed
  split at failed
  · cases failed
  · rename_i none
    cases failed
    exact ⟨(Value.asString_eq_none_iff given).mp none, rfl⟩

/-- A key fails by itself or has no text. -/
theorem keyName_error {key : HostData} {e : EncodeFault} (failed : key.keyName = .error e) :
    key.encode = .error e ∨ ∃ w, key.encode = .ok w ∧ w.Textless ∧ e = .mapKey w.typeName := by
  refine (bind_eq_error.mp failed).imp_right ?_
  rintro ⟨w, encoded, textless⟩
  exact ⟨w, encoded, keyText_error (given_of_encode encoded) textless⟩

theorem not_textless_of_keyName {key : HostData} {name : String} (named : key.keyName = .ok name)
    {w : Value} (encoded : key.encode = .ok w) : ¬ w.Textless := by
  intro textless
  have none := (Value.asString_eq_none_iff (given_of_encode encoded)).mpr textless
  rw [keyName, encoded] at named
  change keyText w = .ok name at named
  rw [keyText, none] at named
  cases named

/-- An entry fails to be written by its key or by its value. -/
theorem encodeEntries_fails {done : List (String × Value)} {e : EncodeFault}
    (failed : encodeEntries entries done = .error e) :
    ∃ entry ∈ entries, entry.1.keyName = .error e ∨ entry.2.encode = .error e := by
  induction entries generalizing done with
  | nil => cases failed
  | cons entry rest ih =>
    rw [encodeEntries_cons] at failed
    rcases bind_eq_error.mp failed with unnamed | ⟨name, -, failed⟩
    · exact ⟨entry, List.mem_cons_self, .inl unnamed⟩
    · rcases bind_eq_error.mp failed with first | ⟨w, -, failed⟩
      · exact ⟨entry, List.mem_cons_self, .inr first⟩
      · obtain ⟨other, member, fails⟩ := ih failed
        exact ⟨other, List.mem_cons_of_mem _ member, fails⟩

/-- What the entries are named and encoded to is written in order. -/
theorem encodeEntries_eq_ok {done all : List (String × Value)} :
    encodeEntries entries done = .ok all ↔ ∃ fs, all = Entries.insertAll done fs ∧
      List.Forall₂ (fun entry f => entry.1.keyName = .ok f.1 ∧ entry.2.encode = .ok f.2)
        entries fs := by
  induction entries generalizing done with
  | nil =>
    rw [encodeEntries, Except.ok.injEq]
    constructor
    · rintro rfl
      exact ⟨[], rfl, .nil⟩
    · rintro ⟨fs, rfl, none⟩
      cases none
      rfl
  | cons entry rest ih =>
    obtain ⟨key, item⟩ := entry
    rw [encodeEntries_cons]
    constructor
    · intro encoded
      obtain ⟨name, named, encoded⟩ := bind_eq_ok.mp encoded
      obtain ⟨w, first, encoded⟩ := bind_eq_ok.mp encoded
      obtain ⟨fs, rfl, others⟩ := ih.mp encoded
      exact ⟨(name, w) :: fs, rfl, .cons ⟨named, first⟩ others⟩
    · rintro ⟨fs, rfl, each⟩
      cases each with
      | cons first others =>
        refine bind_eq_ok.mpr ⟨_, first.1, bind_eq_ok.mpr ⟨_, first.2, ?_⟩⟩
        exact ih.mpr ⟨_, rfl, others⟩

/-- Items encode one by one. -/
theorem encodeItems_eq_ok {ws : List Value} : encodeItems items = .ok ws ↔
    List.Forall₂ (fun item w => item.encode = .ok w) items ws := by
  refine ⟨encodeItems_ok, fun each => ?_⟩
  induction each with
  | nil => rfl
  | cons first _ ih =>
    rw [encodeItems]
    exact bind_eq_ok.mpr ⟨_, first, bind_eq_ok.mpr ⟨_, ih, rfl⟩⟩

/-- Every item of a sequence that succeeds does. -/
theorem sequence_succeeds {item : HostData} (member : item ∈ items)
    (succeeds : (sequence items).Succeeds) : item.Succeeds := by
  obtain ⟨w, encoded⟩ := succeeds
  rw [encode] at encoded
  obtain ⟨ws, each, -⟩ := bind_eq_ok.mp encoded
  obtain ⟨w, -, fits⟩ := exists_right_of_forall₂ (encodeItems_ok each) member
  exact ⟨w, fits⟩

/-- Every key and every entry of a map that succeeds does. -/
theorem map_succeeds {entry : HostData × HostData} (member : entry ∈ entries)
    (succeeds : (map entries).Succeeds) :
    (∃ name, entry.1.keyName = .ok name) ∧ entry.2.Succeeds := by
  obtain ⟨w, encoded⟩ := succeeds
  rw [encode] at encoded
  obtain ⟨all, each, -⟩ := bind_eq_ok.mp encoded
  obtain ⟨fs, -, fits⟩ := encodeEntries_eq_ok.mp each
  obtain ⟨f, -, named, fits⟩ := exists_right_of_forall₂ fits member
  exact ⟨⟨f.1, named⟩, f.2, fits⟩

theorem wrapperVariant_succeeds {variant : String}
    (succeeds : (wrapperVariant variant data).Succeeds) : data.Succeeds := by
  obtain ⟨w, encoded⟩ := succeeds
  rw [encode] at encoded
  obtain ⟨w, inside, -⟩ := bind_eq_ok.mp encoded
  exact ⟨w, inside⟩

theorem record_succeeds {name : String} {fields : List (String × HostData)}
    {field : String × HostData} (member : field ∈ fields)
    (succeeds : (record name fields).Succeeds) : field.2.Succeeds := by
  unfold Succeeds at succeeds
  rw [encode_record] at succeeds
  exact (map_succeeds (List.mem_map_of_mem member) succeeds).2

/-- Where the data is encoded, so is every piece of it. -/
theorem Piece.succeeds {piece : HostData} (inside : data.Piece piece)
    (succeeds : data.Succeeds) : piece.Succeeds := by
  cases inside with
  | present | wrapper =>
    unfold Succeeds at succeeds
    rwa [encode] at succeeds
  | wrapperVariant => exact wrapperVariant_succeeds succeeds
  | sequence member => exact sequence_succeeds member succeeds
  | tuple member =>
    unfold Succeeds at succeeds
    rw [encode_tuple] at succeeds
    exact sequence_succeeds member succeeds
  | tupleRecord member =>
    unfold Succeeds at succeeds
    rw [encode_tupleRecord] at succeeds
    exact sequence_succeeds member succeeds
  | tupleVariant member =>
    unfold Succeeds at succeeds
    rw [encode_tupleVariant] at succeeds
    exact sequence_succeeds member (wrapperVariant_succeeds succeeds)
  | key member =>
    obtain ⟨⟨name, named⟩, -⟩ := map_succeeds member succeeds
    obtain ⟨w, encoded, -⟩ := bind_eq_ok.mp named
    exact ⟨w, encoded⟩
  | value member => exact (map_succeeds member succeeds).2
  | record member => exact record_succeeds member succeeds
  | recordVariant member =>
    unfold Succeeds at succeeds
    rw [encode_recordVariant] at succeeds
    exact record_succeeds member (wrapperVariant_succeeds succeeds)

/-- What fails by itself does not succeed. -/
theorem Fails.not_succeeds {e : EncodeFault} (fails : data.Fails e) : ¬ data.Succeeds := by
  cases fails with
  | failure | keylessValue =>
    rintro ⟨w, encoded⟩
    rw [encode] at encoded
    cases encoded
  | key member encoded textless =>
    intro succeeds
    obtain ⟨⟨name, named⟩, -⟩ := map_succeeds member succeeds
    exact not_textless_of_keyName named encoded textless

/-- What fails is the data itself, or a piece of it with the same fault. -/
theorem fails_or_piece {e : EncodeFault} (failed : data.encode = .error e) :
    data.Fails e ∨ ∃ piece, data.Piece piece ∧ piece.encode = .error e := by
  have items {items : List HostData} {form : HostData} (step : ∀ item ∈ items, form.Piece item)
      (failed : encodeItems items = .error e) :
      ∃ piece, form.Piece piece ∧ piece.encode = .error e := by
    obtain ⟨item, member, fails⟩ := encodeItems_error failed
    exact ⟨item, step item member, fails⟩
  have fields {fields : List (String × HostData)} {form : HostData}
      (step : ∀ field ∈ fields, form.Piece field.2) (failed : encodeFields fields [] = .error e) :
      ∃ piece, form.Piece piece ∧ piece.encode = .error e := by
    rw [encodeFields_eq] at failed
    obtain ⟨entry, member, fails⟩ := encodeEntries_fails failed
    obtain ⟨field, among, rfl⟩ := List.mem_map.mp member
    rw [keyName_text] at fails
    exact ⟨field.2, step field among, fails.resolve_left nofun⟩
  cases data with
  | present inner | wrapper _ inner =>
    rw [encode] at failed
    exact .inr ⟨inner, by constructor, failed⟩
  | wrapperVariant _ inner =>
    rw [encode] at failed
    exact .inr ⟨inner, .wrapperVariant _ _, (bind_eq_error.mp failed).resolve_right nofun⟩
  | sequence =>
    rw [encode] at failed
    exact .inr (items (fun _ => .sequence) ((bind_eq_error.mp failed).resolve_right nofun))
  | tuple =>
    rw [encode] at failed
    exact .inr (items (fun _ => .tuple) ((bind_eq_error.mp failed).resolve_right nofun))
  | tupleRecord =>
    rw [encode] at failed
    exact .inr (items (fun _ => .tupleRecord) ((bind_eq_error.mp failed).resolve_right nofun))
  | tupleVariant =>
    rw [encode] at failed
    exact .inr (items (fun _ => .tupleVariant) ((bind_eq_error.mp failed).resolve_right nofun))
  | record =>
    rw [encode] at failed
    exact .inr (fields (fun _ => .record) ((bind_eq_error.mp failed).resolve_right nofun))
  | recordVariant =>
    rw [encode] at failed
    exact .inr (fields (fun _ => .recordVariant) ((bind_eq_error.mp failed).resolve_right nofun))
  | map =>
    rw [encode] at failed
    obtain ⟨entry, member, fails⟩ :=
      encodeEntries_fails ((bind_eq_error.mp failed).resolve_right nofun)
    rcases fails with unnamed | fails
    · rcases keyName_error unnamed with fails | ⟨w, encoded, textless, rfl⟩
      · exact .inr ⟨entry.1, .key member, fails⟩
      · exact .inl (.key member encoded textless)
    · exact .inr ⟨entry.2, .value member, fails⟩
  | keylessValue inner =>
    rw [encode] at failed
    cases failed
    exact .inl (.keylessValue inner)
  | failure fault =>
    rw [encode] at failed
    cases failed
    exact .inl (.failure e)
  | _ =>
    rw [encode] at failed
    cases failed

/-- Encoding fails at a part that fails by itself, with its fault. -/
theorem exists_fails {e : EncodeFault} (failed : data.encode = .error e) :
    ∃ part, data.Holds part ∧ part.Fails e := by
  induction data using piece_induction with
  | step data ih =>
    rcases fails_or_piece failed with fails | ⟨piece, inside, failed⟩
    · exact ⟨data, .refl, fails⟩
    · obtain ⟨part, within, fails⟩ := ih piece inside failed
      exact ⟨part, .head inside within, fails⟩

/-- What is encoded has no part that fails by itself. -/
theorem not_fails_of_holds {part : HostData} {e : EncodeFault} (succeeds : data.Succeeds)
    (within : data.Holds part) : ¬ part.Fails e := by
  have inside : part.Succeeds := by
    induction within with
    | refl => exact succeeds
    | tail _ last ih => exact last.succeeds ih
  exact fun fails => fails.not_succeeds inside

/-! ## Values among the data -/

/-- The data is described by whole entries, and nothing in it fails by itself but what is
pending. -/
structure Modelled (data : HostData) : Prop where
  entries : ∀ inner, ¬ data.Holds (.keylessValue inner)
  faults : ∀ fault, data.Holds (.failure fault) → fault = .pending

/-- The data itself is no value without a key, and no failure but of what is pending. -/
def Regular : HostData → Prop
  | keylessValue _ => False
  | failure fault => fault = .pending
  | _ => True

/-- Data whose pieces are all modelled are, unless they fail by themselves. -/
theorem modelled_of_pieces (regular : data.Regular)
    (inside : ∀ piece, data.Piece piece → piece.Modelled) : data.Modelled where
  entries inner within := by
    rcases within.cases_head with rfl | ⟨piece, first, rest⟩
    · exact regular
    · exact (inside piece first).entries inner rest
  faults other within := by
    rcases within.cases_head with rfl | ⟨piece, first, rest⟩
    · exact regular
    · exact (inside piece first).faults other rest

theorem modelled_text (s : String) : (text s).Modelled := by
  refine modelled_of_pieces trivial ?_
  rintro _ ⟨⟩

/-- A value is described within the data model. -/
theorem modelled_ofValue (v : Value) : (ofValue v).Modelled := by
  induction v using Value.parts_induction with
  | array items ih =>
    rw [ofValue]
    refine modelled_of_pieces trivial fun piece inside => ?_
    cases inside with
    | sequence member =>
      rw [ofItems_eq_map] at member
      obtain ⟨item, among, rfl⟩ := List.mem_map.mp member
      exact ih item among
  | map entries ih =>
    have written :
        ofEntries entries = entries.map fun entry => (text entry.1, ofValue entry.2) := by
      clear ih
      induction entries with
      | nil => rfl
      | cons entry rest ih => rw [ofEntries, List.map_cons, ih]
    rw [ofValue, written]
    refine modelled_of_pieces trivial fun piece inside => ?_
    cases inside with
    | key member =>
      obtain ⟨entry, -, rfl⟩ := List.mem_map.mp member
      exact modelled_text entry.1
    | value member =>
      obtain ⟨entry, among, rfl⟩ := List.mem_map.mp member
      exact ih entry among
  | failed | pending =>
    rw [ofValue]
    refine modelled_of_pieces rfl ?_
    rintro _ ⟨⟩
  | lazy handle value ih =>
    rw [ofValue]
    exact ih
  | _ =>
    refine modelled_of_pieces trivial ?_
    rintro _ ⟨⟩

/-- The description of a value holds what is pending exactly where the value leads to it. -/
theorem holds_pending_ofValue {v : Value} :
    (ofValue v).Holds (.failure .pending) ↔ v.MeetsPending := by
  constructor
  · intro within
    cases encoded : (ofValue v).encode with
    | ok w => exact absurd (.failure .pending) (not_fails_of_holds ⟨w, encoded⟩ within)
    | error e => exact (encode_ofValue_error encoded).2
  · intro meets
    cases encoded : (ofValue v).encode with
    | ok w => exact absurd meets (not_meetsPending_of_encode encoded)
    | error e =>
      obtain ⟨part, within, fails⟩ := exists_fails encoded
      obtain rfl := (encode_ofValue_error encoded).1
      cases fails
      exact within

/-! ## Writing a map -/

/-- A map that is being written: its entries so far, and the text of a key that waits for its
value. -/
structure MapWriter where
  written : List (String × Value)
  waiting : Option String

namespace MapWriter

def start : MapWriter := ⟨[], none⟩

def key (writer : MapWriter) (key : HostData) : Except EncodeFault MapWriter := do
  return { writer with waiting := some (← key.keyName) }

def value (writer : MapWriter) (item : HostData) : Except EncodeFault MapWriter :=
  match writer.waiting with
  | none => .error .valueBeforeKey
  | some name => do return ⟨Entries.insert writer.written name (← item.encode), none⟩

def entry (writer : MapWriter) (entry : HostData × HostData) : Except EncodeFault MapWriter := do
  (← writer.key entry.1).value entry.2

def finish (writer : MapWriter) : Value := .map writer.written

/-- Writing entries one after the other is encoding them. -/
theorem entries_eq (entries : List (HostData × HostData)) (done : List (String × Value)) :
    entries.foldlM entry ⟨done, none⟩ = (encodeEntries entries done).map (⟨·, none⟩) := by
  induction entries generalizing done with
  | nil => rfl
  | cons e rest ih =>
    rw [encodeEntries_cons, List.foldlM_cons]
    unfold entry key value
    cases e.1.keyName with
    | error fault => rfl
    | ok name =>
      cases e.2.encode with
      | error fault => rfl
      | ok w => exact ih _

end MapWriter

/-- A map is encoded by writing its entries one after the other. -/
theorem encode_map_eq_write (entries : List (HostData × HostData)) :
    (map entries).encode = (entries.foldlM MapWriter.entry .start).map MapWriter.finish := by
  rw [encode, MapWriter.start, MapWriter.entries_eq]
  cases encodeEntries entries [] <;> rfl

/-- A value that is written first has no key. -/
theorem encode_keylessValue_eq_write (inner : HostData) :
    (keylessValue inner).encode = (MapWriter.start.value inner).map MapWriter.finish := by
  rw [encode]
  rfl

/-! ## What data is encoded to -/

/-- A sequence succeeds just when all of its items do, with an array of what they encode to. -/
theorem encode_sequence_eq_ok {w : Value} : (sequence items).encode = .ok w ↔
    ∃ ws, w = .array ws ∧ List.Forall₂ (fun item v => item.encode = .ok v) items ws := by
  rw [encode]
  constructor
  · intro encoded
    obtain ⟨ws, each, encoded⟩ := bind_eq_ok.mp encoded
    cases encoded
    exact ⟨ws, rfl, encodeItems_eq_ok.mp each⟩
  · rintro ⟨ws, rfl, each⟩
    exact bind_eq_ok.mpr ⟨ws, encodeItems_eq_ok.mpr each, rfl⟩

/-- The value is a map that has each key once, with what is given for it last. -/
def LastGiven (given : List (String × Value)) (w : Value) : Prop :=
  ∃ written, w = .map written ∧ (written.map Prod.fst).Nodup ∧
    ∀ name, written.lookup name = given.reverse.lookup name

/-- Of several entries under one key the last is given. -/
theorem lastGiven_of_encode {w : Value} (encoded : (map entries).encode = .ok w) :
    ∃ given, LastGiven given w ∧
      List.Forall₂ (fun entry e => entry.1.keyName = .ok e.1 ∧ entry.2.encode = .ok e.2)
        entries given := by
  rw [encode] at encoded
  obtain ⟨all, each, encoded⟩ := bind_eq_ok.mp encoded
  cases encoded
  obtain ⟨given, rfl, fits⟩ := encodeEntries_eq_ok.mp each
  have empty : (([] : List (String × Value)).map Prod.fst).Nodup := List.nodup_nil
  refine ⟨given, ⟨_, rfl, Entries.nodup_insertAll empty, fun name => ?_⟩, fits⟩
  rw [Entries.lookup_insertAll, List.append_nil]

theorem encode_wrapperVariant (variant : String) (inner : HostData) :
    (wrapperVariant variant inner).encode = inner.encode.map (oneEntry variant) := by
  rw [encode]
  cases inner.encode <;> rfl

/-- No key has the message of a value without a key. -/
theorem message_mapKey_ne (found : String) :
    (EncodeFault.mapKey found).message ≠ EncodeFault.valueBeforeKey.message := by
  intro same
  have fifth : ("Map keys must be strings or numbers, found " ++ found).toList[4]? =
      "Map value serialized before its key".toList[4]? := congrArg (·.toList[4]?) same
  rw [String.toList_append, List.getElem?_append_left (by decide)] at fifth
  exact absurd fifth (by decide)

/-! ## Totality -/

/-- A part of modelled data that fails is pending, or has a key without a text. -/
theorem Modelled.fails {part : HostData} {e : EncodeFault} (modelled : data.Modelled)
    (within : data.Holds part) (fails : part.Fails e) :
    part = .failure .pending ∧ e = .pending ∨ ∃ entries, part = .map entries ∧
      ∃ entry ∈ entries, ∃ w, entry.1.encode = .ok w ∧ w.Textless ∧ e = .mapKey w.typeName := by
  cases fails with
  | failure =>
    obtain rfl := modelled.faults e within
    exact .inl ⟨rfl, rfl⟩
  | keylessValue inner => exact absurd within (modelled.entries inner)
  | key member encoded textless => exact .inr ⟨_, rfl, _, member, _, encoded, textless, rfl⟩

/-- Encoding succeeds for everything that the data model describes, but for what is pending and for
keys without a text, and fails with no other faults than these two. A map that is written entry by
entry never lacks the key of a value. What comes out is, for a sequence in any of its forms, an
array that keeps items and order; for a map, and so for the fields of a record, a map with what is
given last for the text of each key, and nothing else; for a variant that is not bare, a map with
one entry under its name; and for an integer, a value with the same digits as its text. -/
theorem encode_total (data : HostData) (modelled : data.Modelled) :
    ((∃ e, data.encode = .error e) ↔ data.Holds (.failure .pending) ∨
      ∃ entries, data.Holds (.map entries) ∧
        ∃ entry ∈ entries, ∃ w, entry.1.encode = .ok w ∧ w.Textless) ∧
    (∀ e, data.encode = .error e →
      (e = .pending ∨ ∃ w : Value, w.Textless ∧ e = .mapKey w.typeName) ∧
      e ≠ .valueBeforeKey ∧ e.message ≠ "Map value serialized before its key") ∧
    (∀ v, (ofValue v).Modelled ∧ ((ofValue v).Holds (.failure .pending) ↔ v.MeetsPending)) ∧
    (∀ entries inner,
      (map entries).encode = (entries.foldlM MapWriter.entry .start).map MapWriter.finish ∧
      (keylessValue inner).encode = (MapWriter.start.value inner).map MapWriter.finish) ∧
    (∀ items w, (sequence items).encode = .ok w ↔
      ∃ ws, w = .array ws ∧ List.Forall₂ (fun item v => item.encode = .ok v) items ws) ∧
    (∀ name items, (tuple items).encode = (sequence items).encode ∧
      (tupleRecord name items).encode = (sequence items).encode) ∧
    (∀ entries w, (map entries).encode = .ok w → ∃ given, LastGiven given w ∧
      List.Forall₂ (fun entry e => entry.1.keyName = .ok e.1 ∧ entry.2.encode = .ok e.2)
        entries given) ∧
    (∀ name fields, (record name fields).encode =
      (map (fields.map fun field => (text field.1, field.2))).encode) ∧
    (∀ variant inner items fields,
      (wrapperVariant variant inner).encode = inner.encode.map (oneEntry variant) ∧
      (tupleVariant variant items).encode = (sequence items).encode.map (oneEntry variant) ∧
      (recordVariant variant fields).encode =
        (record variant fields).encode.map (oneEntry variant)) ∧
    ∀ i, ∃ v, (integer i).encode = .ok v ∧ v.asString = some (toString i) := by
  refine ⟨⟨?_, ?_⟩, ?_, fun v => ⟨modelled_ofValue v, holds_pending_ofValue⟩,
    fun entries inner => ⟨encode_map_eq_write entries, encode_keylessValue_eq_write inner⟩,
    fun items w => encode_sequence_eq_ok,
    fun name items => ⟨encode_tuple items, encode_tupleRecord name items⟩,
    fun entries w => lastGiven_of_encode, encode_record, fun name inner items fields => ?_,
    fun i => ⟨_, by rw [encode], Value.asString_ofInteger i⟩⟩
  · rintro ⟨e, failed⟩
    obtain ⟨part, within, fails⟩ := exists_fails failed
    rcases modelled.fails within fails with
      ⟨rfl, -⟩ | ⟨entries, rfl, entry, member, w, encoded, textless, -⟩
    · exact .inl within
    · exact .inr ⟨entries, within, entry, member, w, encoded, textless⟩
  · intro blocked
    cases encoded : data.encode with
    | error e => exact ⟨e, rfl⟩
    | ok w =>
      rcases blocked with within | ⟨entries, within, entry, member, key, named, textless⟩
      · exact absurd (.failure _) (not_fails_of_holds ⟨w, encoded⟩ within)
      · exact absurd (.key member named textless) (not_fails_of_holds ⟨w, encoded⟩ within)
  · intro e failed
    obtain ⟨part, within, fails⟩ := exists_fails failed
    rcases modelled.fails within fails with ⟨-, rfl⟩ | ⟨entries, -, entry, -, w, -, textless, rfl⟩
    · exact ⟨.inl rfl, nofun, by decide⟩
    · exact ⟨.inr ⟨w, textless, rfl⟩, nofun, message_mapKey_ne w.typeName⟩
  · refine ⟨encode_wrapperVariant name inner, ?_, ?_⟩
    · rw [encode_tupleVariant, encode_wrapperVariant]
    · rw [encode_recordVariant, encode_wrapperVariant]

/-- Two keys of one text, one an integer beyond 64 bits, and a key that is an array. -/
private def tickets : HostData :=
  .map [(.integer 1267650600228229401496703205376, .text "first"),
    (.text "1267650600228229401496703205376", .text "second"), (.tuple [.absent], .unit)]

/-- A key without a text makes the map fail, however deep the map is. -/
theorem encode_total_tickets : tickets.Modelled ∧ ∃ e, tickets.encode = .error e := by
  have number : (integer 1267650600228229401496703205376).Modelled := by
    refine modelled_of_pieces trivial ?_
    rintro _ ⟨⟩
  have nothing : absent.Modelled ∧ unit.Modelled := by
    constructor <;> refine modelled_of_pieces trivial ?_ <;> rintro _ ⟨⟩
  have single : (tuple [absent]).Modelled := by
    refine modelled_of_pieces trivial fun piece inside => ?_
    cases inside with
    | tuple member => exact List.mem_singleton.mp member ▸ nothing.1
  have modelled : tickets.Modelled := by
    refine modelled_of_pieces trivial fun piece inside => ?_
    cases inside with
    | key member =>
      simp only [List.mem_cons, List.not_mem_nil, or_false] at member
      obtain rfl | rfl | rfl := member
      · exact number
      · exact modelled_text _
      · exact single
    | value member =>
      simp only [List.mem_cons, List.not_mem_nil, or_false] at member
      obtain rfl | rfl | rfl := member
      · exact modelled_text _
      · exact modelled_text _
      · exact nothing.2
  obtain ⟨⟨-, fails⟩, -⟩ := encode_total tickets modelled
  have last : (tuple [absent], unit) ∈ [(integer 1267650600228229401496703205376, text "first"),
      (text "1267650600228229401496703205376", text "second"), (tuple [absent], unit)] := by simp
  exact ⟨modelled, fails (.inr ⟨_, .refl, _, last, .array [.null], rfl, .array _⟩)⟩

end HostData

end Stencil
