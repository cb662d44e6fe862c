import Stencil.Path
import Stencil.Source

/-! # What can go wrong

An error is a cause together with the place it points at. Every cause has one wording, so a
statement about an error is a statement about its cause. Hosts and their tags may also state a
reason of their own.
-/

namespace Stencil

/-- The parts of a template that take a single expression or a body. -/
inductive Construct
  | print
  | embed
  | condition
  | elseCondition
  | otherwise
  | loop
  deriving DecidableEq, Repr

def Construct.word : Construct → String
  | print => ""
  | embed => "embed"
  | condition => "if"
  | elseCondition => "else if"
  | otherwise => "else"
  | loop => "for"

/-- How a missing body names its construct. -/
def Construct.heading : Construct → String
  | condition => "#if"
  | loop => "#for"
  | construct => construct.word

/-- Why a template is not well formed. -/
inductive ParseFault
  | unexpectedEnd
  | unclosedBody
  | bodyStart
  | noBody (construct : Construct)
  | argumentsStart
  | argumentSeparator
  | unclosedArguments
  | notOneArgument (construct : Construct)
  | loopStart
  | loopVariable
  | loopSource
  | unclosedLoop
  | unclosedGroup
  | noExpression
  | expressionAtEnd
  | number (literal : String)
  | unterminatedString
  | escape (byte : UInt8)
  | stringBytes
  | unmatchedClose (path : Path)
  | tagAtEnd
  | unclosedTag (marker : String)
  | noIdentifier
  | stated (reason : String)
  deriving DecidableEq, Repr

def ParseFault.message : ParseFault → String
  | unexpectedEnd => "Unexpected end of input"
  | unclosedBody => "Expected `\x7d` to close body"
  | bodyStart => "Expected `\x7b`"
  | noBody construct => "Expected `\x7b` to open the body of `" ++ construct.heading ++ "`"
  | argumentsStart => "Expected `(`"
  | argumentSeparator => "Expected `,` or `)` in parameter list"
  | unclosedArguments => "Expected `)` to close parameter list"
  | notOneArgument construct => "Expected a single expression in `#" ++ construct.word ++ "(...)`"
  | loopStart => "Expected `(` after `#for`"
  | loopVariable => "Expected a loop variable name in `#for`"
  | loopSource => "Expected `in` after the loop variable"
  | unclosedLoop => "Expected `)` to close `#for`"
  | unclosedGroup => "Expected `)` to close the group"
  | noExpression => "Expected an expression"
  | expressionAtEnd => "Expected an expression, found end of input"
  | number literal => "Invalid number literal `" ++ literal ++ "`"
  | unterminatedString => "Unterminated string literal"
  | escape byte => "Invalid escape sequence `\\" ++ String.ofList [Char.ofNat byte.toNat] ++ "`"
  | stringBytes => "String literal is not valid UTF-8"
  | unmatchedClose path => "Unmatched section close `\x7b\x7b/" ++ path.describe ++ "\x7d\x7d`"
  | tagAtEnd => "Unexpected end of input in tag"
  | unclosedTag marker => "Expected `" ++ marker ++ "` to close tag"
  | noIdentifier => "Expected an identifier"
  | stated reason => reason

/-- Why a template cannot be rendered. -/
inductive SerializeFault
  | embedPath (found : String)
  | noRenderer
  | embedDepth
  | loopKey
  | loopData (found : String)
  | bytes
  | map
  | unresolved
  | stated (reason : String)
  deriving DecidableEq, Repr

/-- How many templates may embed each other. -/
def maxEmbedDepth : Nat := 32

def SerializeFault.message : SerializeFault → String
  | embedPath found => "Embed path must be a string, found " ++ found
  | noRenderer => "Embedding requires a renderer"
  | embedDepth => "Embeds nested deeper than " ++ toString maxEmbedDepth ++ " levels"
  | loopKey => "Could not convert iterator key to string"
  | loopData found => "Could not convert iterator data to array, found " ++ found
  | bytes => "Unable to serialize non-UTF-8 bytes"
  | map => "Unable to serialize a map; select one of its keys"
  | unresolved => "Unable to serialize an unresolved value"
  | stated reason => reason

/-- A write that was refused because it lies too far past the end of an array. -/
structure OutOfReach where
  index : Nat
  length : Nat
  deriving DecidableEq, Repr

def OutOfReach.message (refused : OutOfReach) : String :=
  s!"Index {refused.index} is too far past the end of an array of length {refused.length}"

/-- Why a tag rejects its call. -/
inductive TagFault
  | parameterCount (given expected : Nat)
  | missingBody
  | extraneousBody
  | keyType
  | outOfReach (refused : OutOfReach)
  | timestamp
  | dateFormatType
  | dateFormat
  | dateRange
  | stated (reason : String)
  deriving DecidableEq, Repr

def TagFault.message : TagFault → String
  | parameterCount given expected => s!"Invalid parameter count: {given}/{expected}"
  | missingBody => "Missing body"
  | extraneousBody => "Extraneous body"
  | keyType => "Unsupported key type"
  | outOfReach refused => refused.message
  | timestamp => "Expected a Unix timestamp in seconds"
  | dateFormatType => "Date format must be a string"
  | dateFormat => "Invalid date format"
  | dateRange => "timestamp was not in range"
  | stated reason => reason

/-- Why template bytes cannot be supplied. -/
inductive LoadFault
  | unregistered
  | noSuchFile
  | notADirectory
  | isADirectory
  | stated (reason : String)
  deriving DecidableEq, Repr

def LoadFault.message : LoadFault → String
  | unregistered => "no template registered at this path"
  | noSuchFile => "No such file or directory (os error 2)"
  | notADirectory => "Not a directory (os error 20)"
  | isADirectory => "Is a directory (os error 21)"
  | stated reason => reason

/-- Why host data cannot be encoded. -/
inductive EncodeFault
  | mapKey (found : String)
  | valueBeforeKey
  | pending
  | stated (reason : String)
  deriving DecidableEq, Repr

def EncodeFault.message : EncodeFault → String
  | mapKey found => "Map keys must be strings or numbers, found " ++ found
  | valueBeforeKey => "Map value serialized before its key"
  | pending => "pending values must be resolved before serialization"
  | stated reason => reason

/-- An error and where it happened. -/
inductive Error
  | parse (fault : ParseFault) (source : Source)
  | serialize (fault : SerializeFault) (source : Option Source)
  | missingTag (name : String) (source : Source)
  | tag (name : String) (fault : TagFault) (source : Source)
  | load (path : String) (fault : LoadFault)
  | encode (fault : EncodeFault)
  deriving DecidableEq, Repr

namespace Error

def source? : Error → Option Source
  | parse _ source | missingTag _ source | tag _ _ source => some source
  | serialize _ source => source
  | load .. | encode _ => none

def message : Error → String
  | parse fault source => "Parse error: " ++ fault.message ++ " (" ++ source.describe ++ ")"
  | serialize fault _ => "Serialize error: " ++ fault.message
  | missingTag name source =>
    "No tag named `" ++ name ++ "` is registered (" ++ source.describe ++ ")"
  | tag name fault source =>
    "Tag `" ++ name ++ "`: " ++ fault.message ++ " (" ++ source.describe ++ ")"
  | load path _ => "Unable to load template at `" ++ path ++ "`"
  | encode fault => "Unable to encode value: " ++ fault.message

end Error

end Stencil
