import ClassSkeleton.Declaration.Arguments
import ClassSkeleton.Markup.Cursor
import ClassSkeleton.Outline
import ClassSkeleton.Page.Marks

/-!
The front of a class page, up to its declaration: title, heading with the type parameters,
inheritance list and list of interfaces. Only the title is needed. The other parts are read by a
cursor that each of them may move forward, in the order in which the pages have them.
-/
namespace ClassSkeleton.ClassPage

open Markup

/-- The type parameters in the visible heading; the cursor moves past the heading if it is
closed. -/
def readGenerics (cursor : Cursor) : Except ScanError (List Text × Cursor) :=
  match cursor.peek ['>'] with
  | none => .ok ([], cursor)
  | some tagEnd =>
    match locate cursor.text headingEnd (tagEnd + 1) with
    | none => .ok ([], cursor)
    | some close => do
      let heading ← cut cursor.text (tagEnd + 1) close
      let generics ←
        match Declaration.outerArguments? (plainText heading) with
        | none => pure []
        | some inner => Declaration.splitTopLevel inner ','
      return (generics, cursor.advanceTo (close + Text.width headingEnd))

/-- A link: its target, and the offset past the closing quote. -/
structure Link where
  target : Text
  after : Nat
  deriving DecidableEq, Repr

/-- The links of a region from byte `start` on, as far as their targets are closed. -/
def linksFrom (region : Text) (start : Nat) : Except ScanError (List Link) :=
  match _ : locate region linkMark start with
  | none => .ok []
  | some place =>
    match _ : locate region ['"'] (place + Text.width linkMark) with
    | none => .ok []
    | some close => do
      let target ← cut region (place + Text.width linkMark) close
      let links ← linksFrom region (close + 1)
      return ⟨target, close + 1⟩ :: links
termination_by Text.width region - start
decreasing_by
  have first := locate_bounds ‹locate region linkMark start = some place›
  have second := locate_bounds ‹locate region ['"'] _ = some close›
  have : Text.width ['"'] = 1 := by decide
  omega

/-- Where the inheritance list that begins at `chain` is cut off. -/
def chainEnd (page : Text) (chain : Nat) : Nat :=
  match locate page descriptionMark chain with
  | some bound => bound
  | none => (locate page declarationOpening chain).getD (Text.width page)

/-- The last usable link of the inheritance list is the direct parent. -/
def readSuperType (cursor : Cursor) : Except ScanError (Option TypeRef × Cursor) :=
  match cursor.peek inheritanceMark with
  | none => .ok (none, cursor)
  | some chain => do
    let region ← cut cursor.text chain (chainEnd cursor.text chain)
    let links ← linksFrom region 0
    let parents := links.filterMap fun link => TypeRef.ofTarget? link.target
    let read := (links.getLast?.map (·.after)).getD 0
    return (parents.getLast?, cursor.advanceTo (chain + read))

/-- What a link in the list of interfaces comes to. -/
inductive ContractLink where
  | type (ref : TypeRef)
  | unusable (target : Text)
  | malformed
  deriving DecidableEq, Repr

def ContractLink.ref? : ContractLink → Option TypeRef
  | .type ref => some ref
  | _ => none

/-- The link whose target begins the text. -/
def contractLink (candidate : Text) : ContractLink :=
  match Text.breakAt? ['"'] candidate with
  | none => .malformed
  | some (target, _) =>
    if target.isEmpty then .malformed
    else
      match TypeRef.ofTarget? target with
      | none => .unusable target
      | some ref => .type ref

/-- Type argument brackets opened and not closed in a fragment. -/
def bracketBalance (fragment : Text) : Int :=
  (Text.occurrences "&lt;".toList fragment : Int) - Text.occurrences "&gt;".toList fragment

/-- Links met at depth zero. Links inside of type arguments are no contracts of their own. -/
def contractLinksFrom (depth : Int) : List Text → Except ScanError (List ContractLink)
  | [] => .ok []
  | candidate :: candidates => do
    let links ← contractLinksFrom (← nest depth (bracketBalance candidate)) candidates
    return if depth = 0 then contractLink candidate :: links else links

def contractLinks (interfaces : Text) : Except ScanError (List ContractLink) :=
  match Text.splitOn linkMark interfaces with
  | [] => .ok []
  | front :: candidates => do contractLinksFrom (← nest 0 (bracketBalance front)) candidates

/-- The list of interfaces counts only if its label precedes the class declaration. -/
def precedesDeclaration (cursor : Cursor) (label : Nat) : Bool :=
  match cursor.peek declarationOpening with
  | none => true
  | some declaration => label < declaration

def readContracts (cursor : Cursor) : Except ScanError (List ContractLink × Cursor) :=
  match cursor.peek interfacesMark with
  | none => .ok ([], cursor)
  | some label =>
    if precedesDeclaration cursor label then
      match extractBetween cursor.text listOpening listClosing label with
      | .error (.missing _) => .ok ([], cursor)
      | .error e => .error e
      | .ok interfaces => do
        let links ← contractLinks interfaces.inner
        return (links, cursor.advanceTo interfaces.after)
    else .ok ([], cursor)

/-- The optional parts between the title and the class declaration. -/
structure Front where
  generics : List Text
  superType : Option TypeRef
  contracts : List ContractLink
  cursor : Cursor

def readFront (cursor : Cursor) : Except ScanError Front := do
  let (generics, cursor) ← readGenerics cursor
  let (superType, cursor) ← readSuperType cursor
  let (contracts, cursor) ← readContracts cursor
  return ⟨generics, superType, contracts, cursor⟩

/-- Modifier words ahead of the keyword of the kind. Annotations are none. -/
def classModifiers (kind : Kind) (declaration : Text) : List Text :=
  let words := Text.splitOn [' '] (plainText declaration)
  if words.contains kind.keyword then
    (words.takeWhile (· != kind.keyword)).filter fun word =>
      !word.isEmpty && ! (['@'].isPrefixOf word)
  else []

end ClassSkeleton.ClassPage
