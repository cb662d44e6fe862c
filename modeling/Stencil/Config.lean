import Stencil.Config.Json
import Stencil.Text.Quoted

/-! # Configuration of a renderer

How paths of templates are completed, and whether parsed templates are kept.
-/

namespace Stencil

/-- The settings of a renderer: what is appended to a path that does not end with it, the
directory a path that is not absolute is relative to, and whether parsed templates are kept. -/
structure Config where
  fileEnding : String
  relativeDirectory : String
  shouldCache : Bool
  deriving DecidableEq, Repr

namespace Config

def default : Config := ⟨"", "", true⟩

/-- The path with the ending, unless it ends with it already. -/
def withEnding (config : Config) (path : String) : String :=
  if config.fileEnding.toList.isSuffixOf path.toList then path else path ++ config.fileEnding

def isAbsolute (path : String) : Bool := path.toList.head? == some '/'

def withSlash (directory : String) : String :=
  if directory.toList.getLast? == some '/' then directory else directory ++ "/"

/-- The full path of a template. -/
def resolve (config : Config) (path : String) : String :=
  let ended := config.withEnding path
  if config.relativeDirectory = "" || isAbsolute ended then ended
  else withSlash config.relativeDirectory ++ ended

/-- The value of a key among the members of an object; none when it occurs more than once. -/
def member? (members : List (Option String × Json.Value)) (key : String) :
    Option (Option Json.Value) :=
  match members.filter fun member => member.1 == some key with
  | [] => some none
  | [(_, value)] => some (some value)
  | _ => none

/-- The text of a setting, `fallback` when it is not given. -/
def stringOr (fallback : String) : Option Json.Value → Option String
  | none => some fallback
  | some (.string s) => s
  | some _ => none

/-- The truth of a setting, `fallback` when it is not given. -/
def boolOr (fallback : Bool) : Option Json.Value → Option Bool
  | none => some fallback
  | some (.bool b) => some b
  | some _ => none

def ofSettings (ending directory cache : Option Json.Value) : Option Config := do
  return ⟨← stringOr default.fileEnding ending, ← stringOr default.relativeDirectory directory,
    ← boolOr default.shouldCache cache⟩

/-- The configuration that a JSON text describes: an object with any of the settings, or an array
of the first of them in order. Other members of an object are ignored. -/
def ofJson? (text : String) : Option Config := do
  match ← Json.parse? text with
  | .object members =>
    guard (members.all fun member => member.1.isSome)
    ofSettings (← member? members "file_ending") (← member? members "relative_directory")
      (← member? members "should_cache")
  | .array items =>
    guard (items.length ≤ 3)
    ofSettings items[0]? items[1]? items[2]?
  | _ => none

def debug (config : Config) : String :=
  "RendererConfig \x7b file_ending: " ++ Text.quoted config.fileEnding ++
    ", relative_directory: " ++ Text.quoted config.relativeDirectory ++
    ", should_cache: " ++ toString config.shouldCache ++ " \x7d"

end Config

end Stencil
