import Stencil.Text.CaseTable
import Stencil.Text.Reading

/-! # Case mapping of texts

Lower and upper case of a whole text by the full mappings, where a character may become several
and a capital sigma at the end of a word takes its final form; and capitalization, which maps one
character at a time and so never produces the final form.
-/

namespace Stencil.Text

/-- The code point a shift table maps the character to. -/
def shifted (table : List CaseShift) (n : Nat) : Nat :=
  match table.find? fun row => row.first ≤ n && n ≤ row.last && (n - row.first) % row.step == 0 with
  | some row => (n + row.distance).toNat
  | none => n

/-- The case mapping of one character by a table of expansions and a table of shifts. -/
def mapped (expansions : List (Nat × List Nat)) (shifts : List CaseShift) (c : Char) : List Char :=
  match expansions.lookup c.toNat with
  | some codes => codes.map Char.ofNat
  | none => [Char.ofNat (shifted shifts c.toNat)]

def lowerChar (c : Char) : List Char := mapped lowerExpansions lowerShifts c

def upperChar (c : Char) : List Char := mapped upperExpansions upperShifts c

/-- The first character that is not Case_Ignorable is Cased. -/
def reachesCased (cs : List Char) : Bool :=
  match cs.dropWhile (CodeRange.contains caseIgnorableRanges) with
  | c :: _ => CodeRange.contains casedRanges c
  | [] => false

/-- Lower case after the characters `before`, the nearest first: a capital sigma is final when a
cased character comes before it and none after. -/
def lowerAfter (before : List Char) : List Char → List Char
  | [] => []
  | c :: rest =>
    let image :=
      if c = 'Σ' then (if reachesCased before && !reachesCased rest then ['ς'] else ['σ'])
      else lowerChar c
    image ++ lowerAfter (c :: before) rest

def lowercase (s : String) : String := String.ofList (lowerAfter [] s.toList)

def uppercase (s : String) : String := String.ofList (s.toList.flatMap upperChar)

/-- Upper case for the first character of every word and lower case for the others; `start` says
that the next character begins a word. -/
def capitalizeFrom (start : Bool) : List Char → List Char
  | [] => []
  | c :: rest =>
    if isBlank c then c :: capitalizeFrom true rest
    else (if start then upperChar c else lowerChar c) ++ capitalizeFrom false rest

/-- Every word with its first character in upper case and the rest in lower case. -/
def capitalize (s : String) : String := String.ofList (capitalizeFrom true s.toList)

end Stencil.Text
