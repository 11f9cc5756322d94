import ClassSkeleton.Text.Blank

/-!
Paths are kept as they were written, with `/` between segments. The parts of a path are read from
its end: empty segments and single dots are passed over there, except a dot that begins the path.
-/
namespace ClassSkeleton

structure Path where
  text : Text
  deriving DecidableEq, Repr

namespace Path

def segments (path : Path) : List Text := Text.splitOn ['/'] path.text

def isAbsolute (path : Path) : Bool := ['/'].isPrefixOf path.text

/-- Segments that name nothing: empty ones, and a dot that does not begin the path. The segments
before this one are `above`. -/
def isFiller (segment : Text) (above : List Text) : Bool :=
  segment.isEmpty || (segment == ['.'] && !above.isEmpty)

/-- Segments in backward order from the last that names something. -/
def settle : List Text → List Text
  | [] => []
  | segment :: above => if isFiller segment above then settle above else segment :: above

def backward (path : Path) : List Text := settle path.segments.reverse

/-- The last name of the path; a path that ends in `..` or is only a dot has none. -/
def fileName? (path : Path) : Option Text :=
  match path.backward with
  | [] => none
  | name :: _ => if name = ['.'] ∨ name = ['.', '.'] then none else some name

/-- The paths given by backward segments, longest first, down to the root or the empty path. -/
def upward (absolute : Bool) : List Text → List Path
  | [] => [⟨if absolute then ['/'] else []⟩]
  | segment :: above =>
    if isFiller segment above then upward absolute above
    else ⟨Text.join ['/'] (segment :: above).reverse⟩ :: upward absolute above

/-- The path, its parent, the parent of that and so on. -/
def ancestors (path : Path) : List Path :=
  match path.backward with
  | [] => [path]
  | _ :: above => path :: upward path.isAbsolute above

def parent? (path : Path) : Option Path := path.ancestors[1]?

/-- Append a segment; an absolute one replaces the path, and no separator is added to an empty
path or after another separator. -/
def push (path : Path) (segment : Text) : Path :=
  if ['/'].isPrefixOf segment then ⟨segment⟩
  else if path.text.isEmpty || ['/'].isSuffixOf path.text then ⟨path.text ++ segment⟩
  else ⟨path.text ++ '/' :: segment⟩

def withFileName (path : Path) (name : Text) : Path :=
  match path.fileName?, path.parent? with
  | some _, some above => above.push name
  | _, _ => path.push name

/-- A file name before its last dot, and what follows the dot. A name without a dot, or with its
only dot in front, has no extension. -/
def splitExtension (name : Text) : Text × Option Text :=
  match (Text.splitOn ['.'] name).reverse with
  | extension :: above =>
    match Text.join ['.'] above.reverse with
    | [] => (name, none)
    | stem => (stem, some extension)
  | [] => (name, none)

def extension? (path : Path) : Option Text :=
  path.fileName?.bind fun name => (splitExtension name).2

/-- Exchange the extension of the last name, or add one. -/
def withExtension (path : Path) (extension : Text) : Path :=
  match path.fileName?, path.backward with
  | some name, _ :: above =>
    let stem := (above.reverse.flatMap fun segment => segment ++ ['/']) ++ (splitExtension name).1
    ⟨if extension.isEmpty then stem else stem ++ '.' :: extension⟩
  | _, _ => path

/-- Both kinds of slash become the separator. -/
def normalizeSeparators (text : Text) : Text :=
  text.map fun c => if c = '/' ∨ c = '\\' then '/' else c

/-- The directory named by a text as it was typed. -/
def ofTyped (text : Text) : Path := ⟨normalizeSeparators (Text.trim text)⟩

example : (Path.mk "a//b/./c.d/".toList).parent? = some ⟨"a//b".toList⟩ := by decide

example : (Path.mk "a/.b.c/".toList).withExtension "h".toList = ⟨"a/.b.h".toList⟩ := by decide

end Path

end ClassSkeleton
