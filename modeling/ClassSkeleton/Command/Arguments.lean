import ClassSkeleton.Failure
import ClassSkeleton.Options

/-!
The arguments of the command. They are read from the left, and a flag that takes a value takes the
next argument whatever it looks like. Asking for help ends the reading at once. The cache is kept
with the skeletons unless it is given a root of its own.
-/
namespace ClassSkeleton

inductive Mode where
  | help
  | list (options : Options)
  | generate (options : Options)
  deriving DecidableEq, Repr

inductive UsageCause where
  | missingValue (flag : Text)
  | unknownArgument (argument : Text)
  deriving DecidableEq, Repr

namespace UsageCause

def message : UsageCause → Text
  | .missingValue flag => "Missing value for ".toList ++ flag
  | .unknownArgument argument => "Unknown arg: ".toList ++ argument

def failure (cause : UsageCause) : Failure := .usage cause.message

end UsageCause

namespace Arguments

/-- Flags that take a value. -/
inductive Setting where
  | out
  | cache
  | baseUrl
  | only
  deriving DecidableEq, Repr

/-- Flags that stand alone. -/
inductive Switch where
  | parseOnly
  | list
  | help
  deriving DecidableEq, Repr

def setting? (argument : Text) : Option Setting :=
  if argument = "-o".toList ∨ argument = "--out".toList then some .out
  else if argument = "--cache".toList then some .cache
  else if argument = "--base-url".toList then some .baseUrl
  else if argument = "--only".toList then some .only
  else none

def switch? (argument : Text) : Option Switch :=
  if argument = "--parse-only".toList then some .parseOnly
  else if argument = "--list".toList then some .list
  else if argument = "-h".toList ∨ argument = "--help".toList then some .help
  else none

/-- What has been read of the arguments. -/
structure Choices where
  outRoot : Path
  cacheRoot : Option Path
  baseUrl : Text
  only : List Text
  parseOnly : Bool
  list : Bool
  deriving DecidableEq, Repr

namespace Choices

def start : Choices := ⟨Options.defaultRoot, none, Options.defaultBaseUrl, [], false, false⟩

/-- An address of a directory ends in a slash. -/
def closeUrl (url : Text) : Text := if ['/'].isSuffixOf url then url else url ++ ['/']

def set (choices : Choices) (value : Text) : Setting → Choices
  | .out => { choices with outRoot := Path.ofTyped value }
  | .cache => { choices with cacheRoot := some (Path.ofTyped value) }
  | .baseUrl => { choices with baseUrl := closeUrl value }
  | .only => { choices with only := choices.only ++ Text.commaPieces value }

def options (choices : Choices) : Options :=
  { baseUrl := choices.baseUrl
    indexPage := Options.defaultIndexPage
    only := choices.only
    parseOnly := choices.parseOnly
    cacheRoot := choices.cacheRoot.getD choices.outRoot
    outRoot := choices.outRoot }

def mode (choices : Choices) : Mode :=
  if choices.list then .list choices.options else .generate choices.options

end Choices

def readFrom (choices : Choices) : List Text → Except UsageCause Mode
  | [] => .ok choices.mode
  | argument :: rest =>
    match setting? argument with
    | some setting =>
      match rest with
      | [] => .error (.missingValue argument)
      | value :: rest => readFrom (choices.set value setting) rest
    | none =>
      match switch? argument with
      | some .parseOnly => readFrom { choices with parseOnly := true } rest
      | some .list => readFrom { choices with list := true } rest
      | some .help => .ok .help
      | none => .error (.unknownArgument argument)

def read (arguments : List Text) : Except UsageCause Mode := readFrom Choices.start arguments

end Arguments

end ClassSkeleton
