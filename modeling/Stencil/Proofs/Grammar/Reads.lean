import Stencil.Grammar.Reading
import Stencil.Proofs.Text.Cutting

/-! # What a rule reads

A rule of a grammar reads when it succeeds; what can be said of its value and of the cursor after
it is a postcondition, and what can be said of its error when it fails is another. Rules that follow
each other are read one by one, so a fact about a whole rule is put together from facts about its
parts and never opens them.
-/

namespace Stencil

def afterBlanks (rest : List UInt8) : List UInt8 := rest.dropWhile Text.isAsciiBlank

/-- What is behind a run. -/
theorem drop_takeWhile (p : UInt8 → Bool) (bytes : List UInt8) :
    bytes.drop (bytes.takeWhile p).length = bytes.dropWhile p := by
  have split := List.takeWhile_append_dropWhile (p := p) (l := bytes)
  have dropped := congrArg (List.drop (bytes.takeWhile p).length) split
  rw [List.drop_left] at dropped
  exact dropped.symm

namespace Cursor

variable {buffer : Buffer}

@[simp] theorem rest_skip (c : Cursor buffer) (p : UInt8 → Bool) :
    (c.skip p).rest = c.rest.dropWhile p := drop_takeWhile p c.rest

/-- The position of a cursor counts the bytes that have been read. -/
theorem offset_add_remaining (c : Cursor buffer) :
    c.position.offset + c.remaining = buffer.text.length := by
  obtain ⟨read, text, position⟩ := c.reached
  rw [text, position, Position.offset_advance, List.length_append, remaining]
  exact congrArg (· + _) (Nat.zero_add _)

theorem offset_le {c next : Cursor buffer} (left : next.remaining ≤ c.remaining) :
    c.position.offset ≤ next.position.offset := by
  have first := c.offset_add_remaining
  have second := next.offset_add_remaining
  omega

@[simp] theorem rest_skipBlanks (c : Cursor buffer) :
    c.skipBlanks.rest = afterBlanks c.rest := rest_skip c _

/-- In a text, what stands behind a byte of ASCII is a text. -/
theorem valid_behind (valid : Utf8.Valid buffer.text) {b : UInt8} (ascii : b < 0x80)
    (c : Cursor buffer) {front rest : List UInt8} (there : c.rest = front ++ b :: rest) :
    Utf8.Valid rest := by
  obtain ⟨read, text, _⟩ := c.reached
  rw [text, there, ← List.append_assoc] at valid
  exact ((Utf8.valid_cut ascii).mp valid).2

/-- Behind a byte of ASCII a text goes on as one. -/
theorem valid_advance (valid : Utf8.Valid buffer.text) {b : UInt8} (ascii : b < 0x80)
    {c : Cursor buffer} (there : c.rest.head? = some b) : Utf8.Valid (c.advance 1).rest := by
  obtain ⟨rest, whole⟩ := List.head?_eq_some_iff.mp there
  rw [rest_advance, whole]
  exact valid_behind valid ascii c (whole.trans (List.nil_append _).symm)

end Cursor

namespace Grammar

variable {buffer buffer' : Buffer} {limit limit' : Nat} {α β : Type}

/-- The rule succeeds, and its value and the cursor after it are as stated. -/
def Reads (result : Except Error (Reading buffer limit α)) (Q : α → Cursor buffer → Prop) : Prop :=
  ∃ r, result = .ok r ∧ Q r.value r.next

namespace Reads

variable {result : Except Error (Reading buffer limit α)} {P Q : α → Cursor buffer → Prop}

theorem of_ok {r : Reading buffer limit α} (holds : Q r.value r.next) : Reads (.ok r) Q :=
  ⟨r, rfl, holds⟩

theorem imp (read : Reads result P) (weaker : ∀ value next, P value next → Q value next) :
    Reads result Q := by
  obtain ⟨r, ok, holds⟩ := read
  exact ⟨r, ok, weaker _ _ holds⟩

/-- Two rules in a row: the second goes on from where the first has read to. -/
theorem bind {f : Reading buffer limit α → Except Error (Reading buffer' limit' β)}
    {R : β → Cursor buffer' → Prop} (read : Reads result P)
    (goesOn : ∀ r, P r.value r.next → Reads (f r) R) : Reads (result >>= f) R := by
  obtain ⟨r, rfl, holds⟩ := read
  exact goesOn r holds

end Reads

/-- Whenever the rule succeeds, its value and the cursor after it are as stated. -/
def Ensures (result : Except Error (Reading buffer limit α)) (Q : α → Cursor buffer → Prop) :
    Prop := ∀ r, result = .ok r → Q r.value r.next

namespace Ensures

variable {result : Except Error (Reading buffer limit α)} {P Q : α → Cursor buffer → Prop}

theorem of_ok {r : Reading buffer limit α} (holds : Q r.value r.next) : Ensures (.ok r) Q := by
  rintro _ ⟨⟩
  exact holds

theorem of_error (why : Error) : Ensures (.error why : Except Error (Reading buffer limit α)) Q :=
  nofun

/-- Two rules in a row: what the first ensures can be used for the second. -/
theorem bind {f : Reading buffer limit α → Except Error (Reading buffer' limit' β)}
    {R : β → Cursor buffer' → Prop} (first : Ensures result P)
    (goesOn : ∀ r, P r.value r.next → Ensures (f r) R) : Ensures (result >>= f) R := by
  intro r' ok
  cases result with
  | error why => cases ok
  | ok r => exact goesOn r (first r rfl) r' ok

theorem any (result : Except Error (Reading buffer limit α)) : Ensures result fun _ _ => True :=
  fun _ _ => trivial

/-- When a value is all that is kept of a reading, it is the value of one. -/
theorem of_value {value : α} (ensured : Ensures result Q)
    (kept : (do let read ← result; return read.value) = Except.ok value) :
    ∃ next, Q value next := by
  cases result with
  | ok r =>
    cases kept
    exact ⟨r.next, ensured r rfl⟩
  | error why => cases kept

end Ensures

/-- When the rule succeeds, its value and the cursor after it are as stated, and when it fails, its
error is. -/
def Meets (E : Error → Prop) (Q : α → Cursor buffer → Prop)
    (result : Except Error (Reading buffer limit α)) : Prop :=
  match result with
  | .ok r => Q r.value r.next
  | .error why => E why

namespace Meets

variable {E : Error → Prop} {result : Except Error (Reading buffer limit α)}
  {P Q : α → Cursor buffer → Prop}

theorem of_ok {r : Reading buffer limit α} (holds : Q r.value r.next) : Meets E Q (.ok r) := holds

theorem of_error {why : Error} (fails : E why) :
    Meets E Q (.error why : Except Error (Reading buffer limit α)) := fails

/-- Two rules in a row: what the first meets can be used for the second. -/
theorem bind {f : Reading buffer limit α → Except Error (Reading buffer' limit' β)}
    {R : β → Cursor buffer' → Prop} (first : Meets E P result)
    (goesOn : ∀ r, P r.value r.next → Meets E R (f r)) : Meets E R (result >>= f) := by
  cases result with
  | ok r => exact goesOn r first
  | error why => exact first

/-- What is met is ensured, when reading succeeds. -/
theorem ensures (met : Meets E Q result) : Ensures result Q := by
  rintro r rfl
  exact met

/-- When a value is all that is kept of a reading, it is the value of one. -/
theorem of_value {value : α} (met : Meets E Q result)
    (kept : (do let read ← result; return read.value) = Except.ok value) :
    ∃ next, Q value next := met.ensures.of_value kept

theorem of_failure {why : Error} (met : Meets E Q result)
    (failed : (do let read ← result; return read.value) = Except.error why) : E why := by
  cases result with
  | ok r => cases failed
  | error reason =>
    cases failed
    exact met

end Meets

end Grammar

end Stencil
