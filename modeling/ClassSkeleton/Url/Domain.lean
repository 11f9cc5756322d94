import ClassSkeleton.Text.Composed
import ClassSkeleton.Text.Graphic
import ClassSkeleton.Url.Direction
import ClassSkeleton.Url.Joining
import ClassSkeleton.Url.NameForm
import ClassSkeleton.Url.Punycode

/-!
Domain names in ASCII. A name is first brought into one form: every character exchanged for what it
stands for, and the whole composed. Its labels, some of them written in Punycode behind a mark of
their own, then say a text each that a label may hold; where one of these texts runs from right to
left, all of them keep a direction. What is not in ASCII is written in Punycode.
-/
namespace ClassSkeleton.Url

/-- The one form of a name. -/
def canonical (name : Text) : Text := Text.composed (name.flatMap nameForm)

/-- Graphic characters that no name may hold: those that stand for text with a dot in it, the signs
that describe ideographs, and the characters in place of another. -/
def barred : List (Nat × Nat) :=
  [ (0x2024, 0x2026), (0x2488, 0x249B), (0x2FF0, 0x2FFF), (0x31EF, 0x31EF), (0x33C2, 0x33C2),
    (0x33C7, 0x33C7), (0x33D8, 0x33D8), (0xFE12, 0xFE12), (0xFE19, 0xFE19), (0xFE30, 0xFE30),
    (0xFE52, 0xFE52), (0xFFFC, 0xFFFD), (0x1F100, 0x1F100) ]

/-- Marks in ASCII that no domain name may hold. -/
def domainMarks : List Char := " %#/:<>?@[\\]^|".toList

/-- May a name in canonical form hold the character? -/
def isDomainChar (c : Char) : Bool :=
  if c.toNat < 0x80 then 0x20 ≤ c.toNat && c.toNat < 0x7F && c ∉ domainMarks
  else (Text.isGraphic c || Text.isMark c || isJoiner c) && !Text.inRanges barred c.toNat

def isAscii (text : Text) : Bool := text.all fun c => c.toNat < 0x80

def punycodeMark : Text := "xn--".toList

/-- Labels in Punycode are read up to this length behind their mark. -/
def punycodeLimit : Nat := 2000

/-- Labels are written in Punycode up to this length. -/
def labelLimit : Nat := 1000

/-- The label that a text in Punycode stands for: one in canonical form and not in ASCII. -/
def ofPunycode? (code : Text) : Option Text :=
  if punycodeLimit < code.length ∨ !isAscii code then none
  else
    (Punycode.decode? code).filter fun label =>
      !isAscii label && canonical label == label && Punycode.encode label == code

/-- What a label of a canonical name says. -/
def labelMeaning? (label : Text) : Option Text :=
  match Text.dropMark? punycodeMark label with
  | none => some label
  | some code => ofPunycode? code

/-- Can a label say the text? -/
def isLabel (text : Text) : Bool :=
  text.all isDomainChar && !text.head?.any Text.isMark && joinersFit [] text &&
    (isAscii text || text.length ≤ labelLimit)

def asciiLabel (text : Text) : Text :=
  if isAscii text then text else punycodeMark ++ Punycode.encode text

/-- The name in ASCII, if it is one that a domain can have. -/
def asciiDomain? (name : Text) : Option Text :=
  match (Text.splitOn ['.'] (canonical name)).mapM labelMeaning? with
  | none => none
  | some labels =>
    if labels.all isLabel && (!labels.any runsLeftward || labels.all keepsDirection) then
      some (Text.join ['.'] (labels.map asciiLabel))
    else none

example : asciiDomain? "WWW.Example".toList = some "www.example".toList := by
  decide +kernel

end ClassSkeleton.Url
