import Stencil.Grammar.Mustache
import Stencil.Proofs.Bare
import Stencil.Proofs.Dotted
import Stencil.Proofs.Grammar.Kit.Tokens

/-! # How mustache templates are written

Trees of raw text, tags on one path and sections, and the texts that write a tree. Any name that is
read as a path writes it, also the two names of a section when they differ, and blanks may stand
around a name. A tree is printed with the dotted names of its paths and one space around each.
-/

namespace Stencil.Grammar.Mustache

open Kit (Blank blank_space)

/-- What may stand in a tag. -/
structure Name where
  bytes : List UInt8
  nonempty : bytes ≠ []
  inside : ∀ b ∈ bytes, isNameByte b = true

def Name.path (name : Name) : Path := Path.parse (asciiText name.bytes)

theorem isNameByte_eq (b : UInt8) : isNameByte b = Kit.isWordByte b := Bool.or_right_comm _ _ _

/-- A path that has a name. -/
structure NamedPath where
  path : Path
  named : ∃ name : Name, name.path = path

namespace NamedPath

theorem dotted_inside (named : NamedPath) :
    ∀ c ∈ named.path.dotted, c.toNat < 128 ∧ isNameByte (byte c) = true := by
  obtain ⟨path, name, rfl⟩ := named
  intro c member
  rcases Path.mem_dotted member with rfl | digit | own
  · decide
  · have bounds := Decimal.toNat_of_isDigit digit
    refine ⟨by omega, ?_⟩
    rw [isNameByte_eq, Kit.isWordByte_of_isDigit (Kit.isDigit_byte digit)]
  · rw [asciiText, String.toList_ofList] at own
    obtain ⟨b, inside, rfl⟩ := List.mem_map.mp own
    have letter := name.inside b inside
    have ascii : b.toNat < 128 := Kit.toNat_of_isWordByte (isNameByte_eq b ▸ letter)
    rw [byte, Kit.toUInt8_ofNat ascii, Kit.toNat_ofNat ascii]
    exact ⟨ascii, letter⟩

def name (named : NamedPath) : Name where
  bytes := named.path.dotted.map byte
  nonempty := by
    obtain ⟨path, name, rfl⟩ := named
    exact fun none => Path.dotted_ne_nil _ (List.map_eq_nil_iff.mp none)
  inside := List.forall_mem_map.mpr fun c member => (named.dotted_inside c member).2

/-- The dotted name of a path is read as the path. -/
theorem path_name (named : NamedPath) : named.name.path = named.path := by
  have text : asciiText named.name.bytes = String.ofList named.path.dotted := by
    refine congrArg String.ofList (List.map_map.trans ?_)
    exact (List.map_congr_left fun c member =>
      Utf8.ofNat_toUInt8 (named.dotted_inside c member).1).trans (List.map_id _)
  obtain ⟨path, name, rfl⟩ := named
  rw [Name.path, text]
  exact Path.parse_dotted _

end NamedPath

/-- Text that opens nothing, also not together with a brace behind it. -/
structure PlainText where
  bytes : List UInt8
  nonempty : bytes ≠ []
  unopened : ¬ opener <:+: bytes
  unended : bytes.getLast? ≠ some (byte '\x7b')

/-- A part of a template. -/
inductive Element
  | raw (data : PlainText)
  | print (named : NamedPath)
  | get (named : NamedPath)
  | block (named : NamedPath) (body : List Element)

namespace Element

mutual

def node : Element → Node
  | raw data => .raw nowhere data.bytes
  | print named => .tag nowhere "" [.identifier nowhere named.path] none
  | get named => .tag nowhere "get" [.identifier nowhere named.path] none
  | block named body => .conditional nowhere (.identifier nowhere named.path) (nodes body) []

def nodes : List Element → List Node
  | [] => []
  | e :: rest => e.node :: nodes rest

end

/-- An element may stand before another one. -/
def Joins : Element → Element → Prop
  | raw _, raw _ => False
  | _, _ => True

mutual

/-- Each element of a section may stand before the next. -/
def Proper : Element → Prop
  | raw _ | print _ | get _ => True
  | block _ body => ProperAll body

/-- Each of the elements may stand before the next, also in sections. -/
def ProperAll : List Element → Prop
  | [] => True
  | e :: rest => e.Proper ∧ (∀ e' ∈ rest.head?, e.Joins e') ∧ ProperAll rest

end

end Element

/-- The bytes are a name of the path with blanks around it. -/
inductive WrittenName (named : NamedPath) : List UInt8 → Prop
  | padded {before after : List UInt8} (blankBefore : Blank before) (name : Name)
      (same : name.path = named.path) (blankAfter : Blank after) :
      WrittenName named (before ++ name.bytes ++ after)

mutual

inductive WrittenElement : Element → List UInt8 → Prop
  | raw (data : PlainText) : WrittenElement (.raw data) data.bytes
  | print {named : NamedPath} {inner : List UInt8} (name : WrittenName named inner) :
      WrittenElement (.print named) (opener ++ (inner ++ closer))
  | get {named : NamedPath} {inner : List UInt8} (name : WrittenName named inner) :
      WrittenElement (.get named) (opener ++ byte '\x7b' :: (inner ++ byte '\x7d' :: closer))
  | block {named : NamedPath} {body : List Element} {first text last : List UInt8}
      (opens : WrittenName named first) (inside : WrittenElements body text)
      (closes : WrittenName named last) :
      WrittenElement (.block named body) (opener ++ byte '#' ::
        (first ++ closer ++ (text ++ (opener ++ byte '/' :: (last ++ closer)))))

/-- The bytes write the elements one after the other. -/
inductive WrittenElements : List Element → List UInt8 → Prop
  | nil : WrittenElements [] []
  | cons {e : Element} {rest : List Element} {text others : List UInt8}
      (first : WrittenElement e text) (following : WrittenElements rest others) :
      WrittenElements (e :: rest) (text ++ others)

end

/-- The dotted name of a path with a space on each side. -/
def NamedPath.spaced (named : NamedPath) : List UInt8 :=
  [byte ' '] ++ named.name.bytes ++ [byte ' ']

/-- Blanks around a name do not belong to it. -/
theorem NamedPath.written_spaced (named : NamedPath) : WrittenName named named.spaced :=
  .padded blank_space named.name named.path_name blank_space

namespace Element

mutual

def printed : Element → List UInt8
  | raw data => data.bytes
  | print named => opener ++ (named.spaced ++ closer)
  | get named => opener ++ byte '\x7b' :: (named.spaced ++ byte '\x7d' :: closer)
  | block named body => opener ++ byte '#' :: (named.spaced ++ closer ++
    (printedAll body ++ (opener ++ byte '/' :: (named.spaced ++ closer))))

def printedAll : List Element → List UInt8
  | [] => []
  | e :: rest => e.printed ++ printedAll rest

end

mutual

/-- Every element can be written. -/
theorem written_printed : ∀ e : Element, WrittenElement e e.printed
  | raw data => .raw data
  | print named => .print named.written_spaced
  | get named => .get named.written_spaced
  | block named body =>
    .block named.written_spaced (written_printedAll body) named.written_spaced

theorem written_printedAll : ∀ elements : List Element,
    WrittenElements elements (printedAll elements)
  | [] => .nil
  | e :: rest => .cons e.written_printed (written_printedAll rest)

end

end Element

end Stencil.Grammar.Mustache
