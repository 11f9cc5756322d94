import ClassSkeleton.Path

/-!
What a run is told: where the documentation is, which of its classes to take, whether to download
at all, and the roots of the page cache and of the skeletons.
-/
namespace ClassSkeleton

structure Options where
  baseUrl : Text
  /-- The page that lists all classes, relative to the documentation. -/
  indexPage : Text
  /-- Beginnings of the names to take; none takes all. -/
  only : List Text
  parseOnly : Bool
  cacheRoot : Path
  outRoot : Path
  deriving DecidableEq, Repr

namespace Options

def defaultBaseUrl : Text := "https://docs.oracle.com/javase/8/docs/api/".toList

def defaultIndexPage : Text := "allclasses-noframe.html".toList

def defaultRoot : Path := ⟨"out".toList⟩

/-- The defaults, with pages and skeletons in one directory. -/
def inDirectory (directory : Path) : Options :=
  ⟨defaultBaseUrl, defaultIndexPage, [], false, directory, directory⟩

def default : Options := inDirectory defaultRoot

def indexUrl (options : Options) : Text := options.baseUrl ++ options.indexPage

def accepts (options : Options) (name : Text) : Bool :=
  options.only.isEmpty || options.only.any fun start => start.isPrefixOf name

end Options

end ClassSkeleton
