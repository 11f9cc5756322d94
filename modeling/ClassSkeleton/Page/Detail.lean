import ClassSkeleton.Markup.Cursor
import ClassSkeleton.Outline
import ClassSkeleton.Page.Marks

/-!
The detail sections of a class page describe its members, one block for each. A section reaches
from its heading to the next heading of any of them or to the end of the class data, and a block
from one member heading to the next. Every block is either kept as a member or set aside for a
stated reason.
-/
namespace ClassSkeleton.ClassPage

open Markup

/-- Where the section under `heading` begins and ends, looked for from byte `start` on. -/
def detailRange? (page heading : Text) (start : Nat) : Option (Nat × Nat) :=
  (locate page heading start).map fun place =>
    let first := place + Text.width heading
    let ends := [fieldDetail, constructorDetail, methodDetail, classDataEnd].filterMap
      fun mark => locate page mark first
    (first, ends.min?.getD (Text.width page))

def detailSection (page heading : Text) (start : Nat) : Except ScanError (Option Text) :=
  match detailRange? page heading start with
  | none => .ok none
  | some (first, last) => do return some (← cut page first last)

/-- The member blocks of a section from byte `start` on. -/
def blocksFrom (detail : Text) (start : Nat) : Except ScanError (List Text) :=
  match _ : locate detail memberHeading start with
  | none => .ok []
  | some place => do
    let next :=
      (locate detail memberHeading (place + Text.width memberHeading)).getD (Text.width detail)
    let block ← cut detail place next
    let blocks ← blocksFrom detail next
    return block :: blocks
termination_by Text.width detail - start
decreasing_by
  have first := locate_bounds ‹locate detail memberHeading start = some place›
  have : Text.width memberHeading = 4 := by decide
  cases h' : locate detail memberHeading (place + Text.width memberHeading) with
  | none =>
    simp only [Option.getD_none]
    omega
  | some next' =>
    have second := locate_bounds h'
    simp only [Option.getD_some]
    omega

def memberBlocks (detail : Text) : Except ScanError (List Text) := blocksFrom detail 0

/-- What becomes of a member block. -/
inductive BlockReading where
  | kept (member : Member)
  | refused (refusal : Declaration.Refusal)
  | withoutDeclaration
  /-- A declaration, in plain text, that no prose follows. -/
  | undocumented (declaration : Text)
  deriving DecidableEq, Repr

def BlockReading.member? : BlockReading → Option Member
  | .kept member => some member
  | _ => none

/-- The member declared by a fragment, with its documentation. -/
def readMember (self fragment documentation : Text) : BlockReading :=
  match Declaration.signature self fragment with
  | .error refusal => .refused refusal
  | .ok signature =>
    .kept
      { signature
        visibility := Declaration.visibility fragment
        isAbstract := (Text.splitOn [' '] signature).contains "abstract".toList
        documentation }

/-- A block is declared by its first preformatted text; later ones are samples in its prose.
Prose after the declaration is needed for fields and methods only. -/
def readBlock (proseNeeded : Bool) (self block : Text) : Except ScanError BlockReading :=
  match extractBetween block declarationOpening declarationClosing 0 with
  | .error (.missing _) => .ok .withoutDeclaration
  | .error e => .error e
  | .ok declaration =>
    match locate block proseMark declaration.after with
    | none =>
      if proseNeeded then .ok (.undocumented (plainText declaration.inner))
      else .ok (readMember self declaration.inner [])
    | some place => do
      let prose ← cut block place (Text.width block)
      return readMember self declaration.inner (reflow prose)

def readSection (page heading : Text) (proseNeeded : Bool) (self : Text) (start : Nat) :
    Except ScanError (List BlockReading) := do
  match ← detailSection page heading start with
  | none => return []
  | some detail => (← memberBlocks detail).mapM (readBlock proseNeeded self)

/-- The readings of the three sections. -/
structure Detail where
  fields : List BlockReading
  constructors : List BlockReading
  methods : List BlockReading

def readDetail (page self : Text) (start : Nat) : Except ScanError Detail := do
  let fields ← readSection page fieldDetail true self start
  let constructors ← readSection page constructorDetail false self start
  let methods ← readSection page methodDetail true self start
  return ⟨fields, constructors, methods⟩

end ClassSkeleton.ClassPage
