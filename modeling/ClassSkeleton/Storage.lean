import ClassSkeleton.Entity
import ClassSkeleton.Log
import ClassSkeleton.Skeleton
import ClassSkeleton.Tree.Script

/-!
Pages and skeletons on disk. A file is written to a sibling with the ending `.part` and renamed
into place when it is complete, so that whoever finds a file finds all of it. The two files of a
skeleton are written both or not at all: both siblings are complete before the first is renamed,
and a failed second rename takes the first file back out.
-/
namespace ClassSkeleton.Storage

/-- Is the page of the entity in the cache? A page that is there is complete. -/
def isCached (tree : Tree) (root : Path) (entity : Entity) : Bool :=
  tree.isFile (entity.cachePath root)

def ensureDirectory (path : Path) : Script (Except IoCause Unit) := do
  let exists? ← Script.see fun tree => tree.exists? path
  let isDirectory ← Script.see fun tree => tree.isDirectory path
  if exists? && !isDirectory then return .error (.occupied path.text)
  else if exists? then return .ok ()
  else Script.operation (.makeDirectories path)

/-- The sibling that a file is written to first. -/
def partOf (path : Path) : Path := path.withFileName (path.fileName?.getD [] ++ ".part".toList)

def ensureParent (path : Path) : Script (Except IoCause Unit) :=
  match path.parent? with
  | none => return .ok ()
  | some above => if above.text.isEmpty then return .ok () else ensureDirectory above

/-- Create a file, write all of its contents and flush them. -/
def writeAll (path : Path) (contents : Text) : Script (Except IoCause Unit) := do
  match ← Script.operation (.create path) with
  | .error e => return .error e
  | .ok _ =>
    match ← Script.operation (.write path contents) with
    | .error e => return .error e
    | .ok _ => Script.operation (.flush path)

/-- Put the contents for `path` in place beside it. -/
def stage (path : Path) (contents : Text) : Script (Except IoCause Path) := do
  match ← ensureParent path with
  | .error e => return .error e
  | .ok _ =>
    match ← writeAll (partOf path) contents with
    | .ok _ => return .ok (partOf path)
    | .error e =>
      let _ ← Script.operation (.remove (partOf path))
      return .error e

/-- Rename a complete sibling into place. -/
def commit (part path : Path) : Script (Except IoCause Unit) := do
  match ← Script.operation (.rename part path) with
  | .ok _ => return .ok ()
  | .error e =>
    let _ ← Script.operation (.remove part)
    return .error e

/-- Write a file so that no reader ever finds a part of it. -/
def writeReplacing (path : Path) (contents : Text) : Script (Except IoCause Unit) := do
  match ← stage path contents with
  | .error e => return .error e
  | .ok part => commit part path

def writePage (entity : Entity) (root : Path) (body : Text) : Script (Except IoCause Path) := do
  match ← writeReplacing (entity.cachePath root) body with
  | .error e => return .error e
  | .ok _ => return .ok (entity.cachePath root)

/-- How the writing of a skeleton ended. -/
inductive SkeletonWrite where
  | written (header source : Path)
  | failed (cause : IoCause)
  /-- The source could not be renamed into place, and the header has been taken back. -/
  | withdrawn (header : Path) (cause : IoCause)
  deriving DecidableEq, Repr

namespace SkeletonWrite

/-- The paths of header and source, or why there are none. -/
def outcome : SkeletonWrite → Except IoCause (Path × Path)
  | .written header source => .ok (header, source)
  | .failed cause => .error cause
  | .withdrawn _ cause => .error cause

/-- Only a header that was taken back is worth a line. -/
def log (entity : Entity) : SkeletonWrite → List LogEntry
  | .withdrawn header _ =>
    [.error ("write: ".toList ++ entity.name ++ ": source not written, removing ".toList ++
      header.text)]
  | _ => []

end SkeletonWrite

def writeSkeleton (entity : Entity) (root : Path) (skeleton : Skeleton) : Script SkeletonWrite := do
  let header := entity.headerPath root
  let source := entity.sourcePath root
  match ← stage header skeleton.header with
  | .error e => return .failed e
  | .ok headerPart =>
    match ← stage source skeleton.source with
    | .error e =>
      let _ ← Script.operation (.remove headerPart)
      return .failed e
    | .ok sourcePart =>
      match ← commit headerPart header with
      | .error e =>
        let _ ← Script.operation (.remove sourcePart)
        return .failed e
      | .ok _ =>
        match ← commit sourcePart source with
        | .error e =>
          let _ ← Script.operation (.remove header)
          return .withdrawn header e
        | .ok _ => return .written header source

end ClassSkeleton.Storage
