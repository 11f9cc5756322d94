import ClassSkeleton.TypeRef

/-!
A declaration fragment is read in two steps. `Item` is what stands at the front of the fragment:
a tag, a link with its anchor, an entity, a blank or a single character; each step consumes at
least one character. Items are then gathered into tokens: plain words, names that come from
links, and punctuation, each with the note whether a blank stood before it.
-/
namespace ClassSkeleton.Declaration

inductive Item where
  | letter (c : Char)
  | punctuation (c : Char)
  | blank
  | tag (text : Text)
  /-- An opening link tag, with the text up to the closing tag if there is one. -/
  | link (tag : Text) (anchor : Option Text)
  /-- All that follows a `<` that is never closed, the `<` included. -/
  | remainder (text : Text)
  deriving DecidableEq, Repr

namespace Item

def isLinkTag (tag : Text) : Bool :=
  "<a ".toList.isPrefixOf tag && Text.contains "href=\"".toList tag

def isPunctuation (c : Char) : Bool :=
  c == '(' || c == ')' || c == ',' || c == '[' || c == ']' || c == '>'

/-- The item that begins with a `<`, and what follows it. -/
def afterOpen (rest : Text) : Item × Text :=
  match Text.breakAt? ['>'] rest with
  | none => (.remainder ('<' :: rest), [])
  | some (inside, rest) =>
    let tag := '<' :: inside ++ ['>']
    if isLinkTag tag then
      match Text.breakAt? "</a>".toList rest with
      | none => (.link tag none, rest)
      | some (anchor, rest) => (.link tag (some anchor), rest)
    else (.tag tag, rest)

/-- The item that begins with `c`, and what follows it. -/
def next (c : Char) (rest : Text) : Item × Text :=
  if c = '<' then afterOpen rest
  else
    match Text.dropMark? "&lt;".toList (c :: rest) with
    | some rest => (.punctuation '<', rest)
    | none =>
      match Text.dropMark? "&gt;".toList (c :: rest) with
      | some rest => (.punctuation '>', rest)
      | none =>
        match Text.dropMark? "&nbsp;".toList (c :: rest) with
        | some rest => (.blank, rest)
        | none =>
          if Text.isBlank c then (.blank, rest)
          else if isPunctuation c then (.punctuation c, rest)
          else (.letter c, rest)

theorem afterOpen_length_le (rest : Text) : (afterOpen rest).2.length ≤ rest.length := by
  simp only [afterOpen]
  split
  · simp
  · rename_i inside after h
    have hlen := congrArg List.length (Text.eq_of_breakAt? h)
    simp only [List.length_append] at hlen
    split
    · split
      · simp only []
        omega
      · rename_i anchor tail h'
        have hlen' := congrArg List.length (Text.eq_of_breakAt? h')
        simp only [List.length_append] at hlen'
        simp only []
        omega
    · simp only []
      omega

/-- What follows an item is no longer than what followed its first character. -/
theorem next_length_le (c : Char) (rest : Text) : (next c rest).2.length ≤ rest.length := by
  have drop : ∀ {mark after : Text}, Text.dropMark? mark (c :: rest) = some after →
      mark ≠ [] → after.length ≤ rest.length := by
    intro mark after h hm
    have hlen := congrArg List.length (Text.eq_of_dropMark? h)
    have := List.length_pos_iff.mpr hm
    simp only [List.length_append, List.length_cons] at hlen
    omega
  simp only [next]
  split
  · exact afterOpen_length_le rest
  · split
    · exact drop ‹_› (by decide)
    · split
      · exact drop ‹_› (by decide)
      · split
        · exact drop ‹_› (by decide)
        · split
          · exact Nat.le_refl _
          · split <;> exact Nat.le_refl _

end Item

/-- The items of a fragment, in order. -/
def items : Text → List Item
  | [] => []
  | c :: rest => (Item.next c rest).1 :: items (Item.next c rest).2
termination_by text => text.length
decreasing_by
  have := Item.next_length_le c rest
  simp only [List.length_cons]
  omega

inductive Lexeme where
  /-- A word that stands in the fragment itself. -/
  | word (text : Text)
  /-- A name that a link stands for. -/
  | name (text : Text)
  | mark (c : Char)
  deriving DecidableEq, Repr

def Lexeme.text : Lexeme → Text
  | .word text => text
  | .name text => text
  | .mark c => [c]

structure Token where
  lexeme : Lexeme
  /-- A blank stood between this token and the one before it. -/
  spaced : Bool
  deriving DecidableEq, Repr

/-- The name that a link stands for: a type variable goes by its anchor, any other type by its
target, an annotation with its `@`. -/
def linkName? (tag : Text) (anchor : Option Text) : Option Text :=
  if Text.contains "title=\"type parameter in".toList tag then
    match Markup.plainText (anchor.getD []) with
    | [] => none
    | name => some name
  else
    (TypeRef.ofFragment? tag).map fun type =>
      if Text.contains "title=\"annotation in".toList tag then '@' :: type.ident else type.ident

/-- The token of a word that ends here, if there is one, and whether a blank is still pending. -/
def closeWord (word : Text) (spaced : Bool) : List Token × Bool :=
  if word.isEmpty then ([], spaced) else ([⟨.word word, spaced⟩], false)

/-- Tokens of the items, with `word` begun and a blank pending or not. -/
def gather (word : Text) (spaced : Bool) : List Item → List Token
  | [] => (closeWord word spaced).1
  | item :: items =>
    let closed := closeWord word spaced
    match item with
    | .letter c => gather (word ++ [c]) spaced items
    | .punctuation c => closed.1 ++ ⟨.mark c, closed.2⟩ :: gather [] false items
    | .blank => closed.1 ++ gather [] true items
    | .tag _ => closed.1 ++ gather [] closed.2 items
    | .link tag anchor =>
      match linkName? tag anchor with
      | none => closed.1 ++ gather [] closed.2 items
      | some name => closed.1 ++ ⟨.name name, closed.2⟩ :: gather [] false items
    | .remainder text => closed.1 ++ gather text closed.2 items

def tokens (fragment : Text) : List Token := gather [] false (items fragment)

/-- No blank is set before a closing mark and none after an opening one; elsewhere a blank is
set where the fragment has one. -/
def isGlued (previous : Option Lexeme) (token : Token) : Bool :=
  match previous with
  | none => true
  | some previous =>
    (match token.lexeme with
      | .mark c => c == ')' || c == ',' || c == ']'
      | _ => false) ||
    (match previous with
      | .mark c => c == '(' || c == '<' || c == '['
      | _ => false) ||
    !token.spaced

def renderFrom (previous : Option Lexeme) : List Token → Text
  | [] => []
  | token :: tokens =>
    (if isGlued previous token then token.lexeme.text else ' ' :: token.lexeme.text) ++
      renderFrom (some token.lexeme) tokens

def render (tokens : List Token) : Text := renderFrom none tokens

end ClassSkeleton.Declaration
