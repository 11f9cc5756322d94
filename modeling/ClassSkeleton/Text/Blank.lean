import ClassSkeleton.Text.Basic

/-!
Blank characters are those of the Unicode property White_Space. A run of them, line ends
included, collapses into one space; trimming takes them off both ends of a text.
-/
namespace ClassSkeleton.Text

def isBlank (c : Char) : Bool :=
  let code := c.toNat
  (9 ≤ code && code ≤ 13) || code == 0x20 || code == 0x85 || code == 0xA0 || code == 0x1680 ||
    (0x2000 ≤ code && code ≤ 0x200A) || code == 0x2028 || code == 0x2029 || code == 0x202F ||
    code == 0x205F || code == 0x3000

def trimStart (text : Text) : Text := text.dropWhile isBlank

def trimEnd (text : Text) : Text := (text.reverse.dropWhile isBlank).reverse

def trim (text : Text) : Text := trimEnd (trimStart text)

/-- Collapse after a blank (`afterBlank`) or after another character. -/
def collapseFrom (afterBlank : Bool) : Text → Text
  | [] => []
  | c :: rest =>
    if isBlank c then
      if afterBlank then collapseFrom true rest else ' ' :: collapseFrom true rest
    else c :: collapseFrom false rest

/-- Every run of blanks as one space, also at the ends. -/
def collapse (text : Text) : Text := collapseFrom false text

def firstWord? (text : Text) : Option Text :=
  match trimStart text with
  | [] => none
  | c :: rest => some ((c :: rest).takeWhile fun c => !isBlank c)

def commaPieces (text : Text) : List Text :=
  ((splitOn [','] text).map trim).filter fun piece => !piece.isEmpty

end ClassSkeleton.Text
