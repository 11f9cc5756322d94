import ClassSkeleton.Text.Graphic

/-!
Quoted text, as messages show it: in double quotes, with a backslash before a quote or a
backslash, short escapes for the usual control characters, and the code point in hexadecimal for
every other character that is not graphic. A single quote stays as it is.
-/
namespace ClassSkeleton.Text

def quoteChar (c : Char) : Text :=
  if c = '"' then ['\\', '"']
  else if c = '\\' then ['\\', '\\']
  else if c = '\n' then ['\\', 'n']
  else if c = '\r' then ['\\', 'r']
  else if c = '\t' then ['\\', 't']
  else if c = Char.ofNat 0 then ['\\', '0']
  else if isGraphic c then [c]
  else ['\\', 'u', '{'] ++ Nat.toDigits 16 c.toNat ++ ['}']

def quoted (text : Text) : Text := '"' :: text.flatMap quoteChar ++ ['"']

def quotedList (texts : List Text) : Text :=
  '[' :: join ", ".toList (texts.map quoted) ++ [']']

example : quoted "a\"b\\c\n'é\u0301".toList = "\"a\\\"b\\\\c\\n'é\\u\x7b301\x7d\"".toList := by
  decide +kernel

example : quotedList ["p.A".toList, "z".toList] = "[\"p.A\", \"z\"]".toList := by decide +kernel

end ClassSkeleton.Text
