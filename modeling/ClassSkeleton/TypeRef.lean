import ClassSkeleton.Entity
import ClassSkeleton.Markup.Plain

/-!
A linked type, known by the target of its link. The target loses scheme and host, anchor and page
ending, and the steps up to the documentation root; what is left are the segments of the dotted
name.
-/
namespace ClassSkeleton

structure TypeRef where
  dotted : Text
  ident : Text
  deriving DecidableEq, Repr

namespace TypeRef

def ofDotted (dotted : Text) : TypeRef := ⟨dotted, identifier dotted⟩

/-- A target without scheme and host; nothing when no path follows the host. -/
def withoutHost? (target : Text) : Option Text :=
  match Text.breakAt? "://".toList target with
  | none => some target
  | some (_, rest) => (Text.breakAt? ['/'] rest).map (·.2)

/-- Segments of a target that name something. -/
def targetSegments (target : Text) : List Text :=
  let page := target.takeWhile (· != '#')
  let page := (Text.dropEndMark? ".html".toList page).getD page
  (Text.splitOn ['/'] page).filter fun segment =>
    !segment.isEmpty && segment != "..".toList && segment != ".".toList

/-- The type that a link target names. -/
def ofTarget? (target : Text) : Option TypeRef :=
  (withoutHost? (Text.trim target)).bind fun target =>
    match targetSegments target with
    | [] => none
    | segments => some (ofDotted (Text.join ['.'] segments))

/-- The type of the first link in a fragment, or of the fragment read as a bare target. -/
def ofFragment? (fragment : Text) : Option TypeRef :=
  match Text.breakAt? "href=\"".toList fragment with
  | none => ofTarget? fragment
  | some (_, rest) => (Text.breakAt? ['"'] rest).bind fun parts => ofTarget? parts.1

example : (ofTarget? "../../java/util/Map.Entry.html#getKey--".toList) =
    some ⟨"java.util.Map.Entry".toList, "java_util_Map_Entry".toList⟩ := by decide +kernel

end TypeRef

end ClassSkeleton
