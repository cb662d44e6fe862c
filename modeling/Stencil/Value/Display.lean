import Stencil.Value.Coerce

/-! # Values as text

Two texts of a value. `text` is what messages and logs show, with the entries of a map sorted by
key; `debug` names every shape. Neither looks inside what is deferred.
-/

namespace Stencil.Value

def sortedByKey (entries : List (String × α)) : List (String × α) :=
  entries.mergeSort fun a b => !decide (b.1 < a.1)

mutual

def text : Value → String
  | null => "null"
  | array items => Text.bracketed "[" "]" (itemTexts items)
  | map entries =>
    Text.bracketed "\x7b" "\x7d"
      ((sortedByKey (entryTexts entries)).map fun entry => entry.1 ++ ": " ++ entry.2)
  | bytes data => "<" ++ toString data.length ++ " bytes>"
  | pending .. => "<pending>"
  | lazy .. => "<lazy>"
  | scalar => scalar.asString.getD ""

def itemTexts : List Value → List String
  | [] => []
  | item :: rest => item.text :: itemTexts rest

def entryTexts : List (String × Value) → List (String × String)
  | [] => []
  | (key, item) :: rest => (key, item.text) :: entryTexts rest

end

mutual

/-- The value with its shape spelled out. -/
def debug : Value → String
  | null => "Null"
  | bool b => "Bool(" ++ toString b ++ ")"
  | int i => "Int(" ++ toString i.toInt ++ ")"
  | float x => "Float(" ++ Decimal.described x ++ ")"
  | string s => "String(" ++ Text.quoted s ++ ")"
  | bytes data => "Bytes(" ++ Text.quotedBytes data ++ ")"
  | array items => "Array(" ++ Text.bracketed "[" "]" (itemDebugs items) ++ ")"
  | map entries => "Map(" ++ Text.bracketed "\x7b" "\x7d" (entryDebugs entries) ++ ")"
  | pending .. => "Pending(PendingValue(..))"
  | lazy .. => "Lazy(LazyValue(..))"

def itemDebugs : List Value → List String
  | [] => []
  | item :: rest => item.debug :: itemDebugs rest

/-- The entries with the shapes of their values spelled out. -/
def entryDebugs : List (String × Value) → List String
  | [] => []
  | (key, item) :: rest => (Text.quoted key ++ ": " ++ item.debug) :: entryDebugs rest

end

end Stencil.Value
