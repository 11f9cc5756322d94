import ClassSkeleton.Declaration.Token

/-!
The signature of a member is its declaration on one line, singly spaced, with links reduced to
identifiers. A plain word equal to the short name of the enclosing type is held open by a
placeholder, which the emitter fills in. Deprecated and private members are refused.
-/
namespace ClassSkeleton

inductive Visibility where
  | pub
  | prot
  | priv
  deriving DecidableEq, Repr

namespace Declaration

inductive Refusal where
  | deprecated
  | priv
  deriving DecidableEq, Repr

def modifierWords : List Text :=
  ["static", "final", "abstract", "synchronized", "native", "transient", "volatile", "default",
    "strictfp"].map (·.toList)

/-- The first visibility word among leading modifiers and annotations; a member without one has
been published and counts as public. -/
def visibilityOfWords : List Text → Visibility
  | [] => .pub
  | word :: words =>
    if word = "public".toList then .pub
    else if word = "protected".toList then .prot
    else if word = "private".toList then .priv
    else if ['@'].isPrefixOf word || modifierWords.contains word then visibilityOfWords words
    else .pub

def visibility (fragment : Text) : Visibility :=
  visibilityOfWords (Text.splitOn [' '] (Markup.plainText fragment))

def placeholder : Text := "$Self".toList

/-- The placeholder for the enclosing type, and every other word for itself. -/
def holdSelf (self word : Text) : Text := if word = self then placeholder else word

def Lexeme.holdSelf (self : Text) : Lexeme → Lexeme
  | .word text => .word (Declaration.holdSelf self text)
  | lexeme => lexeme

def Token.holdSelf (self : Text) (token : Token) : Token :=
  { token with lexeme := token.lexeme.holdSelf self }

/-- Fill in the identifier of the enclosing type. -/
def resolveSelf (ident signature : Text) : Text := Text.replace placeholder ident signature

def signature (self fragment : Text) : Except Refusal Text :=
  if Text.contains "Deprecated".toList fragment then .error .deprecated
  else if visibility fragment = .priv then .error .priv
  else .ok (render ((tokens fragment).map (Token.holdSelf self)))

end Declaration

end ClassSkeleton
