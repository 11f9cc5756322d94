import ClassSkeleton.Command.Reply

/-!
The command line. The parts of the file system that the command may look at are read into a tree:
what lies below the two roots and below the directory of the log. The command replies on that tree,
and what the reply changed is written back. No page is downloaded here: every address is refused.
-/
namespace ClassSkeleton.Main

/-- The working directory. -/
def home : IO Place := do
  let directory ← IO.currentDir
  return (Path.mk directory.toString.toList).names

/-- The name by which the system knows a place. -/
def fileName (place : Place) : String := String.ofList ('/' :: Text.join ['/'] place)

/-- A file of the system as an entry, if there is one. -/
def readEntry (place : Place) : IO (Option Entry) := do
  let file := System.mkFilePath [fileName place]
  if ← file.isDir then return some .directory
  if !(← file.pathExists) then return none
  let bytes ← IO.FS.readBinFile file
  match Text.ofUtf8? bytes.toList with
  | some text => return some (.file (.text text))
  | none => return some (.file (.bytes bytes.toList))

/-- The tree with the entry at a place. -/
def readPlace (tree : Tree) (place : Place) : IO Tree := do
  match ← readEntry place with
  | none => return tree
  | some entry => return tree.put place entry

/-- The tree with a place and everything below it. -/
partial def readBelow (tree : Tree) (place : Place) : IO Tree := do
  let tree ← readPlace tree place
  if !tree.isDirectoryAt place then return tree
  let listing ← (System.mkFilePath [fileName place]).readDir
  listing.foldlM (fun tree item => readBelow tree (place ++ [item.fileName.toList])) tree

/-- The place under a name, or above for two dots. -/
def step (here : Place) (name : Text) : Place :=
  if name = ['.'] then here else if name = ['.', '.'] then here.dropLast else here ++ [name]

/-- The tree with a root: the entries on the way to it and everything below it. -/
def readRoot (tree : Tree) (root : Path) : IO Tree := do
  let start := (tree, tree.startOf root)
  let (tree, place) ← root.names.foldlM (fun (tree, here) name => do
    let place := step here name
    return (← readPlace tree place, place)) start
  readBelow tree place

/-- Directories come before what lies in them, since their places are shorter. -/
def writeChange (change : Place × Option Entry) : IO Unit := do
  let name := fileName change.1
  match change.2 with
  | none => IO.FS.removeFile name
  | some .directory => IO.FS.createDirAll name
  | some (.file (.text text)) => IO.FS.writeFile name (String.ofList text)
  | some (.file (.bytes bytes)) => IO.FS.writeBinFile name ⟨bytes.toArray⟩

def writeChanges (before after : Tree) : IO Unit := do
  let changes := (Tree.changes before after).mergeSort fun a b => a.1.length ≤ b.1.length
  changes.forM writeChange

def rootsOf : Except UsageCause Mode → List Path
  | .ok (.list options) => [LogFile.directory, options.cacheRoot]
  | .ok (.generate options) => [LogFile.directory, options.cacheRoot, options.outRoot]
  | _ => []

end ClassSkeleton.Main

open ClassSkeleton in
def main (arguments : List String) : IO UInt32 := do
  let started ← IO.monoMsNow
  let arguments := arguments.map (·.toList)
  let tree := Tree.ofHome (← Main.home)
  let before ← (Main.rootsOf (Arguments.read arguments)).foldlM Main.readRoot tree
  let elapsed := (← IO.monoMsNow) - started
  let (status, reply) := Command.process Site.unreachable before elapsed arguments
  Main.writeChanges before reply.tree
  (← IO.getStderr).putStr (String.ofList reply.stderr)
  (← IO.getStdout).putStr (String.ofList reply.stdout)
  return UInt32.ofNat status
