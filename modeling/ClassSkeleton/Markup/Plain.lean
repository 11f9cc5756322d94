import ClassSkeleton.Text.Blank

/-!
The plain text of a fragment: tags taken out, the three entities decoded, blanks collapsed and
both ends trimmed. An unclosed `<` is text, and so is every entity but `&lt;`, `&gt;` and
`&nbsp;`. Documentation keeps its line structure instead: `reflow` trims line by line and leaves
at most one blank line between two others.
-/
namespace ClassSkeleton.Markup

/-- Take out every `<…>`; `inside` says that a `<` is open. The first `<` without a later `>`
ends the search. -/
def stripFrom (inside : Bool) : Text → Text
  | [] => []
  | c :: rest =>
    if inside then stripFrom (c != '>') rest
    else if c = '<' then
      if '>' ∈ rest then stripFrom true rest else c :: rest
    else c :: stripFrom false rest

def stripTags (text : Text) : Text := stripFrom false text

def decodeEntities (text : Text) : Text :=
  Text.replace "&nbsp;".toList [' ']
    (Text.replace "&gt;".toList ['>'] (Text.replace "&lt;".toList ['<'] text))

def plainText (text : Text) : Text :=
  Text.trim (Text.collapse (decodeEntities (stripTags text)))

/-- Keep nonempty lines, and one empty line where some stood between two of them. `started` says
that a line has been kept, `gap` that empty lines wait for the next one. -/
def squeezeFrom (started gap : Bool) : List Text → List Text
  | [] => []
  | line :: rest =>
    if line.isEmpty then squeezeFrom started started rest
    else if gap then [] :: line :: squeezeFrom true false rest
    else line :: squeezeFrom true false rest

def squeeze (lines : List Text) : List Text := squeezeFrom false false lines

/-- Plain text of a documentation span, line by line. -/
def reflow (html : Text) : Text :=
  Text.join ['\n'] <| squeeze <|
    (Text.lines (decodeEntities (stripTags html))).map fun line => Text.trim (Text.collapse line)

example : reflow "<b>First  line\n\n\n  second <i>x</i> &lt;y&gt;</b>\n\n".toList =
    "First line\n\nsecond x <y>".toList := by decide +kernel

end ClassSkeleton.Markup
