import ClassSkeleton.Log
import ClassSkeleton.Text.Utf8
import ClassSkeleton.Tree.Access

/-!
The debug log on disk: one file in a directory of its own, to the end of which every line goes. A
log that cannot be written is given up without a word.
-/
namespace ClassSkeleton

/-- Contents followed by text. Bytes that are no text do not become one by what follows them. -/
def Content.append (text : Text) : Content → Content
  | .text before => .text (before ++ text)
  | .bytes before => .bytes (before ++ Text.utf8 text)

namespace LogFile

def directory : Path := ⟨".docskel".toList⟩

def path : Path := directory.push "debug.log".toList

/-- The tree with the directory of the log, if nothing else stands in its place. -/
def prepare (tree : Tree) : Tree :=
  if tree.exists? directory then tree else (tree.makeDirectories directory.ancestors).2

def write (tree : Tree) (text : Text) : Tree :=
  match tree.lookup path with
  | .ok (place, .file content) => tree.put place (.file (content.append text))
  | .ok (_, .directory) => tree
  | .error _ =>
    match (tree.createFile path).bind fun made => made.writeFile path text with
    | .ok written => written
    | .error _ => tree

/-- The tree with lines at the end of the log. Where there are none nothing is touched. -/
def append (tree : Tree) (milliseconds : Nat) (lines : List LogLine) : Tree :=
  if lines.isEmpty then tree
  else write (prepare tree) (lines.flatMap (LogLine.render milliseconds))

end LogFile

end ClassSkeleton
