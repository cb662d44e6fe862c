import Stencil.Proofs.Markup

/-! # Escaping loses nothing

An escaped text is read back by replacing each entity, from the left, by the character that it
stands for. The ampersand is itself written as an entity, so none of the text is ever taken for a
part of one: a text that already has entities in it comes back with them. Nor does escaping depend
on where a text is cut, for it goes character by character.
-/

namespace Stencil.Markup

/-- The characters of a text with its entities replaced by what they stand for. An ampersand that
starts none of them is kept. -/
def unescapeChars : List Char → List Char
  | '&' :: 'a' :: 'm' :: 'p' :: ';' :: rest => '&' :: unescapeChars rest
  | '&' :: 'l' :: 't' :: ';' :: rest => '<' :: unescapeChars rest
  | '&' :: 'g' :: 't' :: ';' :: rest => '>' :: unescapeChars rest
  | '&' :: 'q' :: 'u' :: 'o' :: 't' :: ';' :: rest => '"' :: unescapeChars rest
  | '&' :: '#' :: '3' :: '9' :: ';' :: rest => '\'' :: unescapeChars rest
  | c :: rest => c :: unescapeChars rest
  | [] => []

/-- The text with its entities replaced by what they stand for. -/
def unescape (s : String) : String := String.ofList (unescapeChars s.toList)

theorem unescapeChars_cons {c : Char} (other : c ≠ '&') (rest : List Char) :
    unescapeChars (c :: rest) = c :: unescapeChars rest := by
  rw [unescapeChars] <;> exact fun _ ampersand => absurd ampersand other

/-- What is written for a character is read as it again. -/
theorem unescapeChars_escapeChar (c : Char) (rest : List Char) :
    unescapeChars (escapeChar c ++ rest) = c :: unescapeChars rest := by
  unfold escapeChar
  cases named : entity? c with
  | none =>
    have other : c ≠ '&' := by
      rintro rfl
      cases named
    exact unescapeChars_cons other rest
  | some entity =>
    unfold entity? at named
    split_ifs at named with ampersand less greater quote apostrophe
    all_goals
      subst c
      cases named
      rfl

/-- What follows an escaped text is read as it is by itself. -/
theorem unescapeChars_escapeChars (cs rest : List Char) :
    unescapeChars (escapeChars cs ++ rest) = cs ++ unescapeChars rest := by
  induction cs with
  | nil => rfl
  | cons c cs ih =>
    change unescapeChars (escapeChar c ++ escapeChars cs ++ rest) = _
    rw [List.append_assoc, unescapeChars_escapeChar, ih]
    rfl

/-- An escaped text is decoded to itself. -/
theorem unescape_escape (s : String) : unescape (escape s) = s := by
  have read := unescapeChars_escapeChars s.toList []
  rw [List.append_nil, unescapeChars, List.append_nil] at read
  rw [unescape, escape_eq, String.toList_ofList, read, String.ofList_toList]

/-- A text is escaped piece by piece. -/
theorem escape_append (s t : String) : escape (s ++ t) = escape s ++ escape t := by
  rw [escape_eq, escape_eq, escape_eq, String.toList_append, escapeChars_append,
    String.ofList_append]

/-- Nothing has to be escaped exactly where every character is written as it is. -/
theorem escaped?_eq_none_iff {s : String} : escaped? s = none ↔ ∀ c ∈ s.toList, isPlain c := by
  rw [← List.dropWhile_eq_nil_iff]
  unfold escaped?
  cases s.toList.dropWhile isPlain <;> simp

/-- Escaping goes through a text piece by piece and loses nothing of it. An escaped append is the
append of the escaped texts. Reading the entities of an escaped text from the left gives the text
back, so different texts are escaped differently, with entities in them or not. What is written is
inert: it has no angle bracket and no quote in it, and every ampersand starts one of the entities.
And it is what escaping every character gives, on both ways that are taken: a text with nothing to
escape is that already, and where there is something, so is the rest behind the part taken over. -/
theorem escape_lossless :
    (∀ s t, escape (s ++ t) = escape s ++ escape t) ∧
      (∀ s, unescape (escape s) = s) ∧
      Function.Injective escape ∧
      (∀ s, Inert (escape s).toList) ∧
      (∀ s, escaped? s = none ↔ ∀ c ∈ s.toList, isPlain c) ∧
      (∀ s, escaped? s = none → escape s = s ∧ s.toList.flatMap escapeChar = s.toList) ∧
      ∀ s t, escaped? s = some t → escape s = t ∧ t.toList = s.toList.flatMap escapeChar := by
  have whole (s : String) : (escape s).toList = s.toList.flatMap escapeChar := by
    rw [escape_eq, String.toList_ofList, escapeChars]
  refine ⟨escape_append, unescape_escape, Function.LeftInverse.injective unescape_escape,
    inert_escape, fun s => escaped?_eq_none_iff, fun s none => ?_, fun s t found => ?_⟩
  · have kept : escape s = s := by rw [escape, none, Option.getD_none]
    exact ⟨kept, by rw [← whole, kept]⟩
  · have taken : escape s = t := by rw [escape, found, Option.getD_some]
    exact ⟨taken, by rw [← whole, taken]⟩

/-- Text that looks escaped is escaped once more, and read back as it was. -/
example : escape "&lt;" = "&amp;lt;" ∧ unescape "&amp;lt;" = "&lt;" := by decide +kernel

end Stencil.Markup
