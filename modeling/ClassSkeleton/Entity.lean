import ClassSkeleton.Failure
import ClassSkeleton.Path

/-!
An entity is a documented type: its qualified name, whose segments between dots are never blank,
and the address of its page. Names in generated code and places on disk are derived from the
name alone.
-/
namespace ClassSkeleton

/-- No segment between dots is blank. -/
def isQualifiedName (name : Text) : Bool :=
  (Text.splitOn ['.'] name).all fun segment => !(Text.trim segment).isEmpty

def identifier (dotted : Text) : Text := dotted.map fun c => if c = '.' then '_' else c

structure Entity where
  name : Text
  url : Text
  qualified : isQualifiedName name = true
  deriving DecidableEq, Repr

namespace Entity

def ofName? (name url : Text) : Except Failure Entity :=
  if h : isQualifiedName name then .ok ⟨name, url, h⟩ else .error (.invalidName name)

def segments (entity : Entity) : List Text := Text.splitOn ['.'] entity.name

def shortName (entity : Entity) : Text := entity.segments.getLastD []

def package (entity : Entity) : Text := Text.join ['.'] entity.segments.dropLast

def ident (entity : Entity) : Text := identifier entity.name

/-- A directory for each segment but the last, which names the file. -/
def localPath (entity : Entity) (root : Path) (extension : Text) : Path :=
  (entity.segments.foldl Path.push root).withExtension extension

/-- The local path for an arbitrary extension, which must not contain a separator. -/
def localPath? (entity : Entity) (root : Path) (extension : Text) : Option Path :=
  if '/' ∈ extension then none else some (entity.localPath root extension)

def cachePath (entity : Entity) (root : Path) : Path := entity.localPath root "html".toList

def headerPath (entity : Entity) (root : Path) : Path := entity.localPath root "h".toList

def sourcePath (entity : Entity) (root : Path) : Path := entity.localPath root "c".toList

end Entity

end ClassSkeleton
