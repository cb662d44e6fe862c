/-! # UTF-8

Bytes to characters by one pass over the list. A sequence that has begun remembers the range its
next byte must lie in, so over-long forms, surrogates and code points past the last one are cut
at the first byte that makes them invalid. Strict decoding refuses any such cut; lossy decoding
puts one replacement character for each.
-/

namespace Stencil.Utf8

def encodeChars (cs : List Char) : List UInt8 := cs.flatMap String.utf8EncodeChar

def encode (s : String) : List UInt8 := encodeChars s.toList

/-- A sequence that has begun: the code point so far, how many bytes are missing, and the range
of the next one. -/
structure Begun where
  code : Nat
  missing : Nat
  lowest : UInt8
  highest : UInt8

/-- The sequence a leading byte begins, for the bytes that begin one of two to four bytes. -/
def begun? (lead : UInt8) : Option Begun :=
  if 0xC2 ≤ lead ∧ lead ≤ 0xDF then some ⟨lead.toNat - 0xC0, 1, 0x80, 0xBF⟩
  else if lead = 0xE0 then some ⟨0, 2, 0xA0, 0xBF⟩
  else if lead = 0xED then some ⟨0xD, 2, 0x80, 0x9F⟩
  else if 0xE1 ≤ lead ∧ lead ≤ 0xEF then some ⟨lead.toNat - 0xE0, 2, 0x80, 0xBF⟩
  else if lead = 0xF0 then some ⟨0, 3, 0x90, 0xBF⟩
  else if 0xF1 ≤ lead ∧ lead ≤ 0xF3 then some ⟨lead.toNat - 0xF0, 3, 0x80, 0xBF⟩
  else if lead = 0xF4 then some ⟨4, 3, 0x80, 0x8F⟩
  else none

/-- The characters of the bytes, with `none` for each maximal invalid run. -/
def scalars : Option Begun → List UInt8 → List (Option Char)
  | none, [] => []
  | some _, [] => [none]
  | none, b :: rest => first b rest
  | some s, b :: rest =>
    if s.lowest ≤ b ∧ b ≤ s.highest then
      let code := s.code * 64 + (b.toNat - 0x80)
      if s.missing = 1 then some (Char.ofNat code) :: scalars none rest
      else scalars (some ⟨code, s.missing - 1, 0x80, 0xBF⟩) rest
    else none :: first b rest
where
  /-- The characters from a byte on with which no sequence has begun yet. -/
  first (b : UInt8) (rest : List UInt8) : List (Option Char) :=
    if b < 0x80 then some (Char.ofNat b.toNat) :: scalars none rest
    else match begun? b with
      | some s => scalars (some s) rest
      | none => none :: scalars none rest

/-- The text whose bytes these are, if they are valid. -/
def decode? (bytes : List UInt8) : Option String :=
  ((scalars none bytes).mapM id).map String.ofList

/-- The text of the bytes, each maximal invalid run replaced by U+FFFD. -/
def decodeLossy (bytes : List UInt8) : String :=
  String.ofList ((scalars none bytes).map (·.getD '\uFFFD'))

end Stencil.Utf8
