import Stencil.Value.Coerce

/-! # Encoding host data

Host data is what a host program describes of its own values, piece by piece: scalars of every
width, options, sequences, maps, records and the variants of a choice. It is encoded into a value
of templates. Sequences and tuples become arrays, maps and records become maps, the bare variant
of a choice becomes its name, and any other variant a map with one entry under its name.
-/

namespace Stencil

/-- Data as a host describes it. Names of types are part of the description and do not reach the
value. -/
inductive HostData
  | bool (b : Bool)
  | integer (i : Int)
  | float (x : Float)
  | char (c : Char)
  | text (s : String)
  | bytes (data : List UInt8)
  | absent
  | present (inner : HostData)
  | unit
  | unitRecord (name : String)
  | bareVariant (variant : String)
  | wrapper (name : String) (inner : HostData)
  | wrapperVariant (variant : String) (inner : HostData)
  | sequence (items : List HostData)
  | tuple (items : List HostData)
  | tupleRecord (name : String) (items : List HostData)
  | tupleVariant (variant : String) (items : List HostData)
  | map (entries : List (HostData × HostData))
  | record (name : String) (fields : List (String × HostData))
  | recordVariant (variant : String) (fields : List (String × HostData))
  | keylessValue (inner : HostData)
  | failure (fault : EncodeFault)

/-- The value of an integer of any width: beyond 64 bits it keeps its digits as text. -/
def Value.ofInteger (i : Int) : Value :=
  match Decimal.fit? i with
  | some n => .int n
  | none => .string (toString i)

namespace HostData

def oneEntry (key : String) (value : Value) : Value := .map [(key, value)]

def keyText (key : Value) : Except EncodeFault String :=
  match key.asString with
  | some found => .ok found
  | none => .error (.mapKey key.typeName)

mutual

/-- The value of host data. -/
def encode : HostData → Except EncodeFault Value
  | bool b => .ok (.bool b)
  | integer i => .ok (Value.ofInteger i)
  | float x => .ok (.float x)
  | char c => .ok (.string (String.ofList [c]))
  | text s => .ok (.string s)
  | bytes data => .ok (.bytes data)
  | absent | unit | unitRecord _ => .ok .null
  | bareVariant variant => .ok (.string variant)
  | present inner | wrapper _ inner => inner.encode
  | wrapperVariant variant inner => do return oneEntry variant (← inner.encode)
  | sequence items | tuple items | tupleRecord _ items => do return .array (← encodeItems items)
  | tupleVariant variant items => do return oneEntry variant (.array (← encodeItems items))
  | map entries => do return .map (← encodeEntries entries [])
  | record _ fields => do return .map (← encodeFields fields [])
  | recordVariant variant fields => do
    return oneEntry variant (.map (← encodeFields fields []))
  | keylessValue _ => .error .valueBeforeKey
  | failure fault => .error fault

def encodeItems : List HostData → Except EncodeFault (List Value)
  | [] => .ok []
  | item :: rest => do return (← item.encode) :: (← encodeItems rest)

/-- The entries of a map, added to those already there; a later entry replaces an earlier one
under the same text. -/
def encodeEntries :
    List (HostData × HostData) → List (String × Value) → Except EncodeFault (List (String × Value))
  | [], done => .ok done
  | (key, value) :: rest, done => do
    let key ← keyText (← key.encode)
    encodeEntries rest (Entries.insert done key (← value.encode))

/-- The entries of a record, added to those already there. -/
def encodeFields :
    List (String × HostData) → List (String × Value) → Except EncodeFault (List (String × Value))
  | [], done => .ok done
  | (name, value) :: rest, done => do
    encodeFields rest (Entries.insert done name (← value.encode))

end

mutual

/-- The description of a value as host data. Lazy values are computed; pending ones cannot be
described. -/
def ofValue : Value → HostData
  | .null => unit
  | .bool b => bool b
  | .int i => integer i.toInt
  | .float x => float x
  | .string s => text s
  | .bytes data => bytes data
  | .array items => sequence (ofItems items)
  | .map entries => map (ofEntries entries)
  | .pending .. => failure .pending
  | .lazy _ inner => ofValue inner

def ofItems : List Value → List HostData
  | [] => []
  | item :: rest => ofValue item :: ofItems rest

def ofEntries : List (String × Value) → List (HostData × HostData)
  | [] => []
  | (key, item) :: rest => (text key, ofValue item) :: ofEntries rest

end

end HostData

end Stencil
