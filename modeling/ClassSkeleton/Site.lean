import ClassSkeleton.Failure
import ClassSkeleton.Url.Parser

/-!
Where pages come from. A site answers an address with the whole page or with the reason why there
is none.
-/
namespace ClassSkeleton

abbrev Site := Text → Except Text Text

namespace Site

def fetch (site : Site) (url : Text) : Except Failure Text :=
  match site url with
  | .ok body => .ok body
  | .error reason => .error (.fetch url reason)

/-- A site of the given pages; for an address that is given twice the last page counts. -/
def ofPages (pages : List (Text × Text)) : Site := fun url =>
  match pages.reverse.find? fun page => page.1 == url with
  | some page => .ok page.2
  | none => .error "404 Not Found".toList

/-- The site that no request reaches: every address is refused before a connection is made. One
that can be read is named in the reason, without the user that it may be asked as. -/
def unreachable : Site := fun url =>
  match Url.parse? url with
  | none => .error "builder error".toList
  | some url =>
    .error ("builder error for url (".toList ++ url.anonymous.text ++ [')'])

end Site

end ClassSkeleton
