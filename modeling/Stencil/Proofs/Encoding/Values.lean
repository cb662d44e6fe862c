import Stencil.Encode
import Stencil.Proofs.Decimal.Integer
import Stencil.Proofs.Value.Keys
import Stencil.Proofs.Value.Resolution

/-! # Encoding values

A value can be described as host data and encoded again. The encoder computes what is lazy on its
way and waits for nothing, so it gives up at what is pending; where it does not have to, it makes of
a value what resolving makes of it.
-/

namespace Stencil

section

variable {ε α β : Type} {x : Except ε α} {f : α → Except ε β}

theorem bind_eq_ok {b : β} : (x >>= f) = .ok b ↔ ∃ a, x = .ok a ∧ f a = .ok b := by
  cases x with
  | error e => exact ⟨nofun, nofun⟩
  | ok a => exact ⟨fun ended => ⟨a, rfl, ended⟩, fun ⟨_, same, ended⟩ => Except.ok.inj same ▸ ended⟩

theorem bind_eq_error {e : ε} :
    (x >>= f) = .error e ↔ x = .error e ∨ ∃ a, x = .ok a ∧ f a = .error e := by
  cases x with
  | error e' =>
    constructor
    · intro failed
      cases failed
      exact .inl rfl
    · rintro (⟨⟨⟩⟩ | ⟨_, ⟨⟩, _⟩)
      rfl
  | ok a =>
    refine ⟨fun failed => .inr ⟨a, rfl, failed⟩, ?_⟩
    rintro (⟨⟨⟩⟩ | ⟨_, ⟨⟩, failed⟩)
    exact failed

end

/-! ## What the encoder cannot wait for -/

namespace Value

/-- Computing the lazy parts of the value leads to something pending. -/
def MeetsPending (value : Value) : Prop :=
  ∃ handle delay note outcome, value.Meets (.pending handle delay note outcome)

variable {items : List Value} {entries : List (String × Value)}

theorem meetsPending_lazy {handle : Handle} {value : Value} :
    (Value.lazy handle value).MeetsPending ↔ value.MeetsPending := by
  constructor
  · rintro ⟨handle, delay, note, outcome, _ | inside⟩
    exact ⟨handle, delay, note, outcome, inside⟩
  · rintro ⟨handle, delay, note, outcome, inside⟩
    exact ⟨handle, delay, note, outcome, .lazy inside⟩

/-- An array meets something pending where one of its items does. -/
theorem meetsPending_array :
    (Value.array items).MeetsPending ↔ ∃ item ∈ items, item.MeetsPending := by
  constructor
  · rintro ⟨handle, delay, note, outcome, _ | _ | ⟨member, inside⟩⟩
    exact ⟨_, member, handle, delay, note, outcome, inside⟩
  · rintro ⟨item, member, handle, delay, note, outcome, inside⟩
    exact ⟨handle, delay, note, outcome, .item member inside⟩

theorem meetsPending_map :
    (Value.map entries).MeetsPending ↔ ∃ entry ∈ entries, entry.2.MeetsPending := by
  constructor
  · rintro ⟨handle, delay, note, outcome, _ | _ | _ | ⟨member, inside⟩⟩
    exact ⟨_, member, handle, delay, note, outcome, inside⟩
  · rintro ⟨entry, member, handle, delay, note, outcome, inside⟩
    exact ⟨handle, delay, note, outcome, .entry member inside⟩

end Value

/-! ## Values as host data -/

namespace HostData

variable {v w : Value} {items ws : List Value} {entries fs : List (String × Value)}

/-- The text under which an entry with this key is written. -/
def keyName (key : HostData) : Except EncodeFault String := do keyText (← key.encode)

/-! ### Lists of host data -/

/-- Items fail where one of them does. -/
theorem encodeItems_error {items : List HostData} {e : EncodeFault}
    (failed : encodeItems items = .error e) : ∃ item ∈ items, item.encode = .error e := by
  induction items with
  | nil => cases failed
  | cons item rest ih =>
    rw [encodeItems] at failed
    rcases bind_eq_error.mp failed with first | ⟨w, -, failed⟩
    · exact ⟨item, List.mem_cons_self, first⟩
    · rcases bind_eq_error.mp failed with others | ⟨ws, -, failed⟩
      · obtain ⟨item, member, fails⟩ := ih others
        exact ⟨item, List.mem_cons_of_mem _ member, fails⟩
      · cases failed

/-- Items that succeed all do. -/
theorem encodeItems_ok {items : List HostData} {ws : List Value}
    (encoded : encodeItems items = .ok ws) :
    List.Forall₂ (fun item w => item.encode = .ok w) items ws := by
  induction items generalizing ws with
  | nil =>
    cases encoded
    exact .nil
  | cons item rest ih =>
    rw [encodeItems] at encoded
    obtain ⟨w, first, encoded⟩ := bind_eq_ok.mp encoded
    obtain ⟨others, each, encoded⟩ := bind_eq_ok.mp encoded
    cases encoded
    exact .cons first (ih each)

theorem ofItems_eq_map (items : List Value) : ofItems items = items.map ofValue := by
  induction items with
  | nil => rfl
  | cons item rest ih => rw [ofItems, List.map_cons, ih]

/-! ### Entries of a value -/

/-- An entry is written under the name of its key, before the rest. -/
theorem encodeEntries_cons (key item : HostData) (rest : List (HostData × HostData))
    (done : List (String × Value)) : encodeEntries ((key, item) :: rest) done =
      key.keyName >>= fun name => item.encode >>= fun w =>
        encodeEntries rest (Entries.insert done name w) := by
  rw [encodeEntries, keyName, bind_assoc]

theorem keyName_text (key : String) : (text key).keyName = .ok key := by
  rw [keyName, encode]
  rfl

theorem encodeEntries_text (key : String) (item : HostData) (rest : List (HostData × HostData))
    (done : List (String × Value)) : encodeEntries ((text key, item) :: rest) done =
      item.encode >>= fun w => encodeEntries rest (Entries.insert done key w) := by
  rw [encodeEntries_cons, keyName_text]
  rfl

/-- Entries fail where one of their values does. -/
theorem encodeEntries_error {done : List (String × Value)} {e : EncodeFault}
    (failed : encodeEntries (ofEntries entries) done = .error e) :
    ∃ entry ∈ entries, (ofValue entry.2).encode = .error e := by
  induction entries generalizing done with
  | nil => cases failed
  | cons entry rest ih =>
    rw [ofEntries, encodeEntries_text] at failed
    rcases bind_eq_error.mp failed with first | ⟨w, -, failed⟩
    · exact ⟨entry, List.mem_cons_self, first⟩
    · obtain ⟨other, member, fails⟩ := ih failed
      exact ⟨other, List.mem_cons_of_mem _ member, fails⟩

/-- Entries that succeed are inserted in order, each with the encoding of its value. -/
theorem encodeEntries_ok {done all : List (String × Value)}
    (encoded : encodeEntries (ofEntries entries) done = .ok all) :
    ∃ fs, all = Entries.insertAll done fs ∧ List.Forall₂
      (fun entry f => entry.1 = f.1 ∧ (ofValue entry.2).encode = .ok f.2) entries fs := by
  induction entries generalizing done with
  | nil =>
    cases encoded
    exact ⟨[], rfl, .nil⟩
  | cons entry rest ih =>
    rw [ofEntries, encodeEntries_text] at encoded
    obtain ⟨w, first, encoded⟩ := bind_eq_ok.mp encoded
    obtain ⟨fs, rfl, others⟩ := ih encoded
    exact ⟨(entry.1, w) :: fs, rfl, .cons ⟨rfl, first⟩ others⟩

/-! ### Values -/

theorem encode_array_ok (encoded : (ofValue (.array items)).encode = .ok w) : ∃ ws, w = .array ws ∧
    List.Forall₂ (fun item w => (ofValue item).encode = .ok w) items ws := by
  rw [ofValue, encode] at encoded
  obtain ⟨ws, each, encoded⟩ := bind_eq_ok.mp encoded
  cases encoded
  have fits := encodeItems_ok each
  rw [ofItems_eq_map, List.forall₂_map_left_iff] at fits
  exact ⟨ws, rfl, fits⟩

theorem encode_map_ok (encoded : (ofValue (.map entries)).encode = .ok w) :
    ∃ fs, w = .map (Entries.insertAll [] fs) ∧ List.Forall₂
      (fun entry f => entry.1 = f.1 ∧ (ofValue entry.2).encode = .ok f.2) entries fs := by
  rw [ofValue, encode] at encoded
  obtain ⟨all, each, encoded⟩ := bind_eq_ok.mp encoded
  cases encoded
  obtain ⟨fs, rfl, fits⟩ := encodeEntries_ok each
  exact ⟨fs, rfl, fits⟩

/-- Encoding a value fails only at something pending. -/
theorem encode_ofValue_error {e : EncodeFault} (failed : (ofValue v).encode = .error e) :
    e = .pending ∧ v.MeetsPending := by
  induction v using Value.parts_induction with
  | array items ih =>
    rw [ofValue, encode] at failed
    rcases bind_eq_error.mp failed with each | ⟨ws, -, failed⟩
    · obtain ⟨item, member, fails⟩ := encodeItems_error each
      rw [ofItems_eq_map] at member
      obtain ⟨v, among, rfl⟩ := List.mem_map.mp member
      obtain ⟨same, meets⟩ := ih v among fails
      exact ⟨same, Value.meetsPending_array.mpr ⟨v, among, meets⟩⟩
    · cases failed
  | map entries ih =>
    rw [ofValue, encode] at failed
    rcases bind_eq_error.mp failed with each | ⟨all, -, failed⟩
    · obtain ⟨entry, member, fails⟩ := encodeEntries_error each
      obtain ⟨same, meets⟩ := ih entry member fails
      exact ⟨same, Value.meetsPending_map.mpr ⟨entry, member, meets⟩⟩
    · cases failed
  | failed | pending =>
    rw [ofValue, encode] at failed
    cases failed
    exact ⟨rfl, _, _, _, _, .here _⟩
  | lazy handle value ih =>
    rw [ofValue] at failed
    obtain ⟨same, meets⟩ := ih failed
    exact ⟨same, Value.meetsPending_lazy.mpr meets⟩
  | _ => cases failed

/-- A value that is encoded meets nothing pending. -/
theorem not_meetsPending_of_encode (encoded : (ofValue v).encode = .ok w) : ¬ v.MeetsPending := by
  rintro ⟨handle, delay, note, outcome, meets⟩
  generalize met : Value.pending handle delay note outcome = p at meets
  induction meets generalizing w with
  | here value =>
    subst met
    cases encoded
  | lazy _ ih => exact ih encoded met
  | item member _ ih =>
    obtain ⟨ws, -, each⟩ := encode_array_ok encoded
    obtain ⟨w, _, fits⟩ := exists_right_of_forall₂ each member
    exact ih fits met
  | entry member _ ih =>
    obtain ⟨fs, -, each⟩ := encode_map_ok encoded
    obtain ⟨f, _, _, fits⟩ := exists_right_of_forall₂ each member
    exact ih fits met

/-- What the encoder makes of a value is what resolving makes of it. -/
theorem computed_of_encode (keyed : v.Keyed) (encoded : (ofValue v).encode = .ok w) :
    v.computed? = some w := by
  induction v using Value.parts_induction generalizing w with
  | array items ih =>
    obtain ⟨ws, rfl, each⟩ := encode_array_ok encoded
    refine Value.computed?_array_eq_some.mpr ⟨ws, rfl, ?_⟩
    exact forall₂_imp_of_mem each fun item member w =>
      ih item member (Value.keyed_array.mp keyed item member)
  | map entries ih =>
    obtain ⟨fs, rfl, each⟩ := encode_map_ok encoded
    have keys : entries.map Prod.fst = fs.map Prod.fst := by
      rw [← List.forall₂_eq_eq_eq, List.forall₂_map_left_iff, List.forall₂_map_right_iff]
      exact each.imp fun _ _ fits => fits.1
    obtain ⟨once, inside⟩ := Value.keyed_map.mp keyed
    have distinct : (([] ++ fs).map Prod.fst).Nodup := keys ▸ once
    rw [Entries.insertAll_of_nodup distinct]
    refine Value.computed?_map_eq_some.mpr ⟨fs, rfl, ?_⟩
    exact forall₂_imp_of_mem each fun entry member f fits =>
      ⟨fits.1, ih entry member (inside entry member) fits.2⟩
  | failed | pending => cases encoded
  | lazy handle value ih =>
    rw [ofValue] at encoded
    exact ih (Value.keyed_lazy.mp keyed) encoded
  | int i =>
    rw [ofValue, encode, Value.ofInteger, Decimal.fit?_toInt] at encoded
    cases encoded
    rfl
  | _ =>
    cases encoded
    rfl

/-! ### What is encoded is keyed -/

mutual

/-- However often a key is written, it occurs once in what comes out. -/
theorem keyed_of_encode : ∀ {data : HostData} {w : Value}, data.encode = .ok w → w.Keyed
  | .bool _, _, encoded | .float _, _, encoded | .char _, _, encoded | .text _, _, encoded
  | .bytes _, _, encoded | .absent, _, encoded | .unit, _, encoded | .unitRecord _, _, encoded
  | .bareVariant _, _, encoded => by
    rw [encode] at encoded
    cases encoded
    exact nofun
  | .integer i, _, encoded => by
    rw [encode, Value.ofInteger] at encoded
    split at encoded <;> cases encoded <;> exact nofun
  | .present inner, _, encoded | .wrapper _ inner, _, encoded => by
    rw [encode] at encoded
    exact keyed_of_encode encoded
  | .wrapperVariant _ inner, _, encoded => by
    rw [encode] at encoded
    obtain ⟨w, inside, encoded⟩ := bind_eq_ok.mp encoded
    cases encoded
    exact Value.keyed_map.mpr ⟨List.pairwise_singleton _ _,
      List.forall_mem_singleton.mpr (keyed_of_encode inside)⟩
  | .sequence items, _, encoded | .tuple items, _, encoded | .tupleRecord _ items, _, encoded => by
    rw [encode] at encoded
    obtain ⟨ws, inside, encoded⟩ := bind_eq_ok.mp encoded
    cases encoded
    exact Value.keyed_array.mpr (keyed_of_encodeItems inside)
  | .tupleVariant _ items, _, encoded => by
    rw [encode] at encoded
    obtain ⟨ws, inside, encoded⟩ := bind_eq_ok.mp encoded
    cases encoded
    exact Value.keyed_map.mpr ⟨List.pairwise_singleton _ _,
      List.forall_mem_singleton.mpr (Value.keyed_array.mpr (keyed_of_encodeItems inside))⟩
  | .map entries, _, encoded => by
    rw [encode] at encoded
    obtain ⟨all, inside, encoded⟩ := bind_eq_ok.mp encoded
    cases encoded
    exact keyed_of_encodeEntries inside (Value.keyed_map.mpr ⟨.nil, nofun⟩)
  | .record _ fields, _, encoded => by
    rw [encode] at encoded
    obtain ⟨all, inside, encoded⟩ := bind_eq_ok.mp encoded
    cases encoded
    exact keyed_of_encodeFields inside (Value.keyed_map.mpr ⟨.nil, nofun⟩)
  | .recordVariant _ fields, _, encoded => by
    rw [encode] at encoded
    obtain ⟨all, inside, encoded⟩ := bind_eq_ok.mp encoded
    cases encoded
    exact Value.keyed_map.mpr ⟨List.pairwise_singleton _ _, List.forall_mem_singleton.mpr
      (keyed_of_encodeFields inside (Value.keyed_map.mpr ⟨.nil, nofun⟩))⟩

/-- Keys are unique in what items encode to, at any depth. -/
theorem keyed_of_encodeItems : ∀ {items : List HostData} {ws : List Value},
    encodeItems items = .ok ws → ∀ w ∈ ws, w.Keyed
  | [], _, encoded => by
    cases encoded
    exact nofun
  | item :: rest, _, encoded => by
    rw [encodeItems] at encoded
    obtain ⟨w, first, encoded⟩ := bind_eq_ok.mp encoded
    obtain ⟨ws, others, encoded⟩ := bind_eq_ok.mp encoded
    cases encoded
    exact List.forall_mem_cons.mpr ⟨keyed_of_encode first, keyed_of_encodeItems others⟩

/-- Keys stay unique while entries are added. -/
theorem keyed_of_encodeEntries : ∀ {entries : List (HostData × HostData)}
    {done all : List (String × Value)}, encodeEntries entries done = .ok all →
      (Value.map done).Keyed → (Value.map all).Keyed
  | [], _, _, encoded, keyed => by
    cases encoded
    exact keyed
  | (key, item) :: rest, _, _, encoded, keyed => by
    rw [encodeEntries_cons] at encoded
    obtain ⟨name, named, encoded⟩ := bind_eq_ok.mp encoded
    obtain ⟨w, inside, encoded⟩ := bind_eq_ok.mp encoded
    exact keyed_of_encodeEntries encoded (Value.keyed_insert keyed (keyed_of_encode inside))

theorem keyed_of_encodeFields : ∀ {fields : List (String × HostData)}
    {done all : List (String × Value)}, encodeFields fields done = .ok all →
      (Value.map done).Keyed → (Value.map all).Keyed
  | [], _, _, encoded, keyed => by
    cases encoded
    exact keyed
  | (name, item) :: rest, _, _, encoded, keyed => by
    rw [encodeFields] at encoded
    obtain ⟨w, inside, encoded⟩ := bind_eq_ok.mp encoded
    exact keyed_of_encodeFields encoded (Value.keyed_insert keyed (keyed_of_encode inside))

end

end HostData

end Stencil
