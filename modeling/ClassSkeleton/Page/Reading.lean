import ClassSkeleton.Page.Detail
import ClassSkeleton.Page.Front

/-!
Reading a class page as a whole. The title decides the kind, and only classes are read further;
a class needs its declaration, and everything else on the page may be absent. What is set aside
on the way is noted and leaves no trace in the outline.
-/
namespace ClassSkeleton

open Markup ClassPage

/-- What reading a page produced. -/
inductive PageResult where
  | outline (outline : Outline)
  /-- A recognized kind that has no skeleton yet. -/
  | notImplemented (kind : Kind)
  deriving DecidableEq, Repr

/-- Something on a page that was set aside. -/
inductive PageNote where
  | unusableLink (target : Text)
  | malformedLink
  | constructorWithoutDeclaration
  | memberWithoutDeclaration
  | undocumented (declaration : Text)
  deriving DecidableEq, Repr

def PageNote.message (entity : Text) : PageNote → Text
  | .unusableLink target => entity ++ ": unusable interface link ".toList ++ Text.quoted target
  | .malformedLink => entity ++ ": malformed interface link skipped".toList
  | .constructorWithoutDeclaration =>
    entity ++ ": constructor block without declaration skipped".toList
  | .memberWithoutDeclaration => entity ++ ": member block without declaration skipped".toList
  | .undocumented declaration =>
    entity ++ ": no documentation for ".toList ++ Text.quoted declaration ++ ", skipped".toList

namespace ClassPage

def ContractLink.note? : ContractLink → Option PageNote
  | .type _ => none
  | .unusable target => some (.unusableLink target)
  | .malformed => some .malformedLink

/-- Refused members are not worth a note. -/
def BlockReading.note? (ofConstructor : Bool) : BlockReading → Option PageNote
  | .kept _ => none
  | .refused _ => none
  | .withoutDeclaration =>
    some (if ofConstructor then .constructorWithoutDeclaration else .memberWithoutDeclaration)
  | .undocumented declaration => some (.undocumented declaration)

def Detail.notes (detail : Detail) : List PageNote :=
  detail.fields.filterMap (BlockReading.note? false) ++
    detail.constructors.filterMap (BlockReading.note? true) ++
    detail.methods.filterMap (BlockReading.note? false)

/-- Members of the field and method sections; which of the two they are is seen from their
signatures. -/
def Detail.members (detail : Detail) : List Member :=
  (detail.fields ++ detail.methods).filterMap BlockReading.member?

/-- The outline put together from the parts of the page. -/
def outlineOf (entity : Entity) (front : Front) (declaration : Text) (detail : Detail) : Outline :=
  { entity
    kind := .cls
    modifiers := classModifiers .cls declaration
    generics := front.generics
    superType := front.superType
    implemented := Outline.contractsOf (front.contracts.filterMap ContractLink.ref?)
    constructors := detail.constructors.filterMap BlockReading.member?
    methods := detail.members.filter (·.isCallable)
    fields := detail.members.filter fun member => !member.isCallable }

/-- A page as read: what was set aside, and the result. -/
structure Reading where
  notes : List PageNote
  outcome : Except Failure PageResult

/-- The page of a class, from the end of its title on. -/
def readClass (entity : Entity) (cursor : Cursor) : Reading :=
  let failed (notes : List PageNote) (e : ScanError) : Reading :=
    ⟨notes, .error (.ofScan entity.name e)⟩
  match readFront cursor with
  | .error e => failed [] e
  | .ok front =>
    let notes := front.contracts.filterMap ContractLink.note?
    match front.cursor.between declarationOpening declarationClosing with
    | (.error e, _) => failed notes e
    | (.ok declaration, cursor) =>
      match readDetail cursor.text entity.shortName cursor.position with
      | .error e => failed notes e
      | .ok detail =>
        ⟨notes ++ detail.notes, .ok (.outline (outlineOf entity front declaration.inner detail))⟩

def read (page : Text) (entity : Entity) : Reading :=
  match (Cursor.start page).between titleMark ['"'] with
  | (.error e, _) => ⟨[], .error (.ofScan entity.name e)⟩
  | (.ok title, cursor) =>
    let title := decodeEntities title.inner
    match Kind.ofTitle? title with
    | none => ⟨[], .error (.unrecognizedKind entity.name title)⟩
    | some .cls => readClass entity cursor
    | some kind => ⟨[], .ok (.notImplemented kind)⟩

/-- The outline of a class page, or the kind of another page. -/
def result (page : Text) (entity : Entity) : Except Failure PageResult :=
  (read page entity).outcome

end ClassPage

end ClassSkeleton
