import Stencil.Grammar.Reading

/-! # String literals of kit templates

The bytes after an opening quote, up to the closing one. Escapes are resolved, except that an
escaped `#` is kept as it is written in the second of two results: that one is read again as a
template, where the escape still has a meaning.
-/

namespace Stencil.Grammar.Kit

/-- The contents of a string literal: as plain text, and as a template; and how many bytes were
read, with the closing quote. -/
structure Quoted where
  plain : List UInt8
  template : List UInt8
  length : Nat

/-- The byte that an escape other than that of `#` stands for. -/
def unescaped? (b : UInt8) : Option UInt8 :=
  if b = byte '"' then some (byte '"')
  else if b = byte '\\' then some (byte '\\')
  else if b = byte 'n' then some 0x0A
  else if b = byte 't' then some 0x09
  else none

/-- The contents with a byte and its spelling put in front. -/
def Quoted.cons (plain : UInt8) (template : List UInt8) (read : Nat) (q : Quoted) : Quoted :=
  ⟨plain :: q.plain, template ++ q.template, read + q.length⟩

/-- Reading that goes on after `read` bytes were understood. -/
def prepend (read : Nat) (add : Quoted → Quoted) :
    Except (ParseFault × Nat) Quoted → Except (ParseFault × Nat) Quoted
  | .ok q => .ok (add q)
  | .error (why, count) => .error (why, read + count)

theorem prepend_eq_ok {read : Nat} {add : Quoted → Quoted} {q : Quoted}
    {following : Except (ParseFault × Nat) Quoted} :
    prepend read add following = .ok q ↔ ∃ q', following = .ok q' ∧ add q' = q := by
  cases following <;> simp [prepend]

/-- Reads the contents of a string literal; a fault comes with how many bytes were read. -/
def readQuoted : List UInt8 → Except (ParseFault × Nat) Quoted
  | [] => .error (.unterminatedString, 0)
  | b :: rest =>
    if b = byte '"' then .ok ⟨[], [], 1⟩
    else if b = byte '\\' then
      match rest with
      | [] => .error (.unterminatedString, 1)
      | e :: more =>
        if e = byte '#' then
          prepend 2 (Quoted.cons (byte '#') [byte '\\', byte '#'] 2) (readQuoted more)
        else match unescaped? e with
          | some meant => prepend 2 (Quoted.cons meant [meant] 2) (readQuoted more)
          | none => .error (.escape e, 2)
    else prepend 1 (Quoted.cons b [b] 1) (readQuoted rest)

/-- The contents are shorter as a template than the bytes that were read for them. -/
theorem template_length_lt {bytes : List UInt8} {q : Quoted} (read : readQuoted bytes = .ok q) :
    q.template.length < q.length ∧ q.length ≤ bytes.length := by
  fun_induction readQuoted bytes generalizing q with
  | case1 | case3 | case6 => simp at read
  | case2 => simp only [Except.ok.injEq] at read; subst read; simp
  | case4 _ _ ih | case5 _ _ _ _ _ _ ih | case7 _ _ _ _ ih =>
    obtain ⟨q', following, rfl⟩ := prepend_eq_ok.mp read
    have := ih following
    simp [Quoted.cons]; omega

end Stencil.Grammar.Kit
