import ClassSkeleton.Failure
import ClassSkeleton.Path
import ClassSkeleton.Tree.Basic

/-!
Paths read against a tree, an absolute one from the top and a relative one from the home. Every
name but the last has to lead into a directory; a dot stays where it is and two dots go up, and at
the top they stay there. A path that ends in a slash can only mean a directory. The causes of
failure are those of a file system, in its order: a path that is no path at all, then the first
name that leads nowhere.
-/
namespace ClassSkeleton

def Path.lengthLimit : Nat := 4095

def Path.names (path : Path) : List Text := path.segments.filter fun name => !name.isEmpty

def Path.wantsDirectory (path : Path) : Bool := ['/'].isSuffixOf path.text

namespace Tree

/-- The entry under a name in the directory at a place. -/
def enter (tree : Tree) (here : Place) (name : Text) : Except IoCause Place :=
  if !tree.isDirectoryAt here then .error .notDirectory
  else if name = ['.'] then .ok here
  else if name = ['.', '.'] then .ok here.dropLast
  else if nameLimit < Text.width name then .error .nameTooLong
  else if (tree.get? (here ++ [name])).isNone then .error .notFound
  else .ok (here ++ [name])

def walk (tree : Tree) (here : Place) : List Text → Except IoCause Place
  | [] => .ok here
  | name :: names =>
    match tree.enter here name with
    | .error e => .error e
    | .ok place => tree.walk place names

def startOf (tree : Tree) (path : Path) : Place := if path.isAbsolute then [] else tree.home

def checkPath (path : Path) : Except IoCause Unit :=
  if Char.ofNat 0 ∈ path.text then .error .nullInPath
  else if path.text.isEmpty then .error .notFound
  else if Path.lengthLimit < Text.width path.text then .error .nameTooLong
  else .ok ()

/-- The place and the entry that a path leads to. -/
def lookup (tree : Tree) (path : Path) : Except IoCause (Place × Entry) := do
  checkPath path
  let place ← tree.walk (tree.startOf path) path.names
  match tree.get? place with
  | none => .error .notFound
  | some (.file content) =>
    if path.wantsDirectory then .error .notDirectory else return (place, .file content)
  | some .directory => return (place, .directory)

def exists? (tree : Tree) (path : Path) : Bool := (tree.lookup path).toBool

def isDirectory (tree : Tree) (path : Path) : Bool :=
  match tree.lookup path with
  | .ok (_, .directory) => true
  | _ => false

def isFile (tree : Tree) (path : Path) : Bool :=
  match tree.lookup path with
  | .ok (_, .file _) => true
  | _ => false

def readText (tree : Tree) (path : Path) : Except IoCause Text :=
  match tree.lookup path with
  | .error e => .error e
  | .ok (_, .directory) => .error .isDirectory
  | .ok (_, .file (.bytes _)) => .error .notUtf8
  | .ok (_, .file (.text text)) => .ok text

/-- The files below a directory, each by the names that lead to it from there. No directory below
is taken to lie so deep that it could not be listed. -/
def filesBelow (tree : Tree) (path : Path) : Except IoCause (List Place) :=
  match tree.lookup path with
  | .error e => .error e
  | .ok (_, .file _) => .error .notDirectory
  | .ok (place, .directory) =>
    .ok <| tree.items.filterMap fun item =>
      match item.2 with
      | .directory => none
      | .file _ => if place.isPrefixOf item.1 then some (item.1.drop place.length) else none

/-- Where the last name of a path is or would be: the directory it lies in, and the name. -/
def target (tree : Tree) (path : Path) : Except IoCause (Place × Text) := do
  checkPath path
  match path.names.getLast? with
  | none => .error .exists
  | some name =>
    let parent ← tree.walk (tree.startOf path) path.names.dropLast
    if tree.isDirectoryAt parent then return (parent, name) else .error .notDirectory

def isDots (name : Text) : Bool := name == ['.'] || name == ['.', '.']

def makeDirectory (tree : Tree) (path : Path) : Except IoCause Tree := do
  let (parent, name) ← tree.target path
  if isDots name then .error .exists
  else if nameLimit < Text.width name then .error .nameTooLong
  else if (tree.get? (parent ++ [name])).isSome then .error .exists
  else return tree.put (parent ++ [name]) .directory

/-- A new empty file; an old one is emptied. -/
def createFile (tree : Tree) (path : Path) : Except IoCause Tree := do
  let (parent, name) ← tree.target path
  if isDots name || path.wantsDirectory then .error .isDirectory
  else if nameLimit < Text.width name then .error .nameTooLong
  else if tree.isDirectoryAt (parent ++ [name]) then .error .isDirectory
  else return tree.put (parent ++ [name]) (.file (.text []))

/-- Text written to a file that has been created. -/
def writeFile (tree : Tree) (path : Path) (text : Text) : Except IoCause Tree :=
  match tree.lookup path with
  | .error e => .error e
  | .ok (_, .directory) => .error .isDirectory
  | .ok (place, .file _) => .ok (tree.put place (.file (.text text)))

/-- A file moved over another path in one step; what stood there is replaced unless it is a
directory. -/
def rename (tree : Tree) (source path : Path) : Except IoCause Tree := do
  let (sourceParent, sourceName) ← tree.target source
  let (parent, name) ← tree.target path
  if isDots sourceName || isDots name then .error .busy
  else
    match tree.get? (sourceParent ++ [sourceName]) with
    | none => .error .notFound
    | some .directory => .error .isDirectory
    | some (.file content) =>
      if nameLimit < Text.width name then .error .nameTooLong
      else if source.wantsDirectory || path.wantsDirectory then .error .notDirectory
      else if tree.isDirectoryAt (parent ++ [name]) then .error .isDirectory
      else return (tree.prune (sourceParent ++ [sourceName])).put (parent ++ [name]) (.file content)

def removeFile (tree : Tree) (path : Path) : Except IoCause Tree := do
  let (parent, name) ← tree.target path
  if isDots name then .error .isDirectory
  else
    match tree.get? (parent ++ [name]) with
    | none => .error .notFound
    | some .directory => .error .isDirectory
    | some (.file _) =>
      if path.wantsDirectory then .error .notDirectory else return tree.prune (parent ++ [name])

/-- Make the first of the given paths a directory, and for that those after it as far as they are
missing. Directories made on the way stay even if a later one cannot be made. -/
def makeDirectories (tree : Tree) : List Path → Except IoCause Unit × Tree
  | [] => (.error .noTree, tree)
  | path :: above =>
    let settled (tree : Tree) (e : IoCause) : Except IoCause Unit × Tree :=
      (if tree.isDirectory path then .ok () else .error e, tree)
    if path.text.isEmpty then (.ok (), tree)
    else
      match tree.makeDirectory path with
      | .ok made => (.ok (), made)
      | .error .notFound =>
        match tree.makeDirectories above with
        | (.error e, tree) => (.error e, tree)
        | (.ok _, tree) =>
          match tree.makeDirectory path with
          | .ok made => (.ok (), made)
          | .error e => settled tree e
      | .error e => settled tree e

end Tree

end ClassSkeleton
