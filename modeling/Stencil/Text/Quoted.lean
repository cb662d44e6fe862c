import Stencil.Text.Printable
import Stencil.Text.Utf8

/-! # Quoted texts

How texts and bytes are shown inside descriptions: between double quotes, with a backslash before
a quote or a backslash, short escapes for the common controls, and a hexadecimal escape for what
has no shape of its own.
-/

namespace Stencil.Text

def hex (n : Nat) : List Char := Nat.toDigits 16 n

def quotedChar (c : Char) : List Char :=
  if c = '\x00' then ['\\', '0']
  else if c = '\t' then ['\\', 't']
  else if c = '\r' then ['\\', 'r']
  else if c = '\n' then ['\\', 'n']
  else if c = '\\' || c = '"' then ['\\', c]
  else if isPrintable c then [c]
  else ['\\', 'u', '\x7b'] ++ hex c.toNat ++ ['\x7d']

def quoted (s : String) : String :=
  String.ofList ('"' :: s.toList.flatMap quotedChar ++ ['"'])

def quotedByte (b : UInt8) : List Char :=
  let c := Char.ofNat b.toNat
  if c = '\x00' then ['\\', '0']
  else if c = '\t' then ['\\', 't']
  else if c = '\r' then ['\\', 'r']
  else if c = '\n' then ['\\', 'n']
  else if c = '\\' || c = '"' then ['\\', c]
  else if 0x20 ≤ b && b ≤ 0x7E then [c]
  else ['\\', 'x'] ++ (if b < 0x10 then ['0'] else []) ++ hex b.toNat

/-- The bytes between double quotes, marked with a leading b. -/
def quotedBytes (bytes : List UInt8) : String :=
  String.ofList ('b' :: '"' :: bytes.flatMap quotedByte ++ ['"'])

/-- Items between two brackets, separated by a comma and a blank. -/
def bracketed (opening closing : String) (items : List String) : String :=
  opening ++ ", ".intercalate items ++ closing

end Stencil.Text
