import ClassSkeleton.Outline
import ClassSkeleton.Text.Upper

/-!
The skeleton of a class: a header with its annotations and the handle type, and a source with one
stub for each member. Both are sequences of lines; the same outline always gives the same lines.
-/
namespace ClassSkeleton

structure Skeleton where
  header : Text
  source : Text
  deriving DecidableEq, Repr

namespace Skeleton

def includeGuard (entity : Entity) : Text := Text.upper entity.ident ++ "_H".toList

def referenceLine (label : Text) (type : TypeRef) : Text :=
  "// @".toList ++ label ++ ' ' :: type.ident ++ " (".toList ++ type.dotted ++ [')']

/-- Type parameters, then the parent, then the interfaces. -/
def annotationLines (outline : Outline) : List Text :=
  outline.generics.map (fun generic => "// @generic ".toList ++ generic) ++
    outline.superType.toList.map (referenceLine "extends".toList) ++
    outline.implemented.map (referenceLine "implements".toList)

/-- A blank line closes a group of lines that is not empty. -/
def closeGroup (lines : List Text) : List Text := if lines.isEmpty then [] else lines ++ [[]]

/-- The initializer is declared here only for a class that declares no constructor. -/
def headerLines (outline : Outline) : List Text :=
  let ident := outline.entity.ident
  let guard := includeGuard outline.entity
  ["#ifndef ".toList ++ guard, "#define ".toList ++ guard, []] ++
    closeGroup (annotationLines outline) ++
    ["typedef struct ".toList ++ ident ++ "_S *".toList ++ ident ++ [';']] ++
    (if outline.constructors.isEmpty then [ident ++ ' ' :: ident ++ "_init();".toList] else []) ++
    [[], "#endif".toList]

def commentLine (line : Text) : Text := if line.isEmpty then " *".toList else " * ".toList ++ line

def commentLines (documentation : Text) : List Text :=
  if documentation.isEmpty then []
  else "/**".toList :: (Text.lines documentation).map commentLine ++ [" */".toList]

def stubLine (ident : Text) (member : Member) : Text :=
  let signature := Declaration.resolveSelf ident member.signature
  if member.hasBody then signature ++ " \x7b TODO \x7d".toList else signature ++ [';']

def memberLines (ident : Text) (member : Member) : List Text :=
  commentLines member.documentation ++ [stubLine ident member]

/-- Fields, constructors and methods, each after a blank line. -/
def sourceLines (outline : Outline) : List Text :=
  let ident := outline.entity.ident
  closeGroup (outline.modifiers.map fun modifier => "// @".toList ++ modifier) ++
    ["struct ".toList ++ ident ++ "_S \x7b".toList, "\x7d;".toList] ++
    (outline.fields ++ outline.constructors ++ outline.methods).flatMap
      fun member => [] :: memberLines ident member

def ofOutline (outline : Outline) : Skeleton :=
  ⟨Text.unlines (headerLines outline), Text.unlines (sourceLines outline)⟩

end Skeleton

end ClassSkeleton
