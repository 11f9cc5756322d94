import ClassSkeleton.TypeRef
import ClassSkeleton.Declaration.Signature

/-!
The outline of a class is what its page says about it, free of markup: modifiers and type
parameters, the direct parent, the interfaces without repetition, and the members that are part
of its published surface.
-/
namespace ClassSkeleton

inductive Kind where
  | cls
  | iface
  | enum
  deriving DecidableEq, Repr

namespace Kind

/-- The kind that a page title opens with. -/
def ofTitle? (title : Text) : Option Kind :=
  (Text.firstWord? title).bind fun word =>
    if word = "Class".toList then some .cls
    else if word = "Interface".toList then some .iface
    else if word = "Enum".toList then some .enum
    else none

def label : Kind → Text
  | .cls => "Class".toList
  | .iface => "Interface".toList
  | .enum => "Enum".toList

def keyword : Kind → Text
  | .cls => "class".toList
  | .iface => "interface".toList
  | .enum => "enum".toList

end Kind

/-- A retained constructor, method or field. -/
structure Member where
  signature : Text
  visibility : Visibility
  isAbstract : Bool
  documentation : Text
  deriving DecidableEq, Repr

namespace Member

def isCallable (member : Member) : Bool := '(' ∈ member.signature

/-- Something that can be called and is not abstract has a body. -/
def hasBody (member : Member) : Bool := !member.isAbstract && member.isCallable

end Member

structure Outline where
  entity : Entity
  kind : Kind
  modifiers : List Text
  generics : List Text
  superType : Option TypeRef
  implemented : List TypeRef
  constructors : List Member
  methods : List Member
  fields : List Member
  deriving DecidableEq, Repr

namespace Outline

def memberCount (outline : Outline) : Nat :=
  outline.constructors.length + outline.methods.length + outline.fields.length

/-- A contract joins the others unless its dotted name is among them. -/
def addContract (contracts : List TypeRef) (type : TypeRef) : List TypeRef :=
  if contracts.any fun known => known.dotted == type.dotted then contracts else contracts ++ [type]

def contractsOf (types : List TypeRef) : List TypeRef := types.foldl addContract []

end Outline

end ClassSkeleton
