import ClassSkeleton.Declaration.Signature
import ClassSkeleton.Proofs.Text.Occurrence

/-!
How items are gathered into tokens, item by item. A letter goes on with the word that has been
begun. Every other item closes it, makes a token by itself or none, and leaves a new word and
a pending blank to the items behind it. A signature is the tokens of a declaration, set on a line.
-/
namespace ClassSkeleton.Declaration

namespace Item

/-- What an item comes to by itself: the mark that it is, or the name that it stands for. -/
def lexeme? : Item → Option Lexeme
  | .punctuation c => some (.mark c)
  | .link opening anchor => (linkName? opening anchor).map .name
  | _ => none

/-- The token that an item makes by itself, if it makes one. -/
def own (item : Item) (spaced : Bool) : List Token :=
  (item.lexeme?.map fun lexeme => ⟨lexeme, spaced⟩).toList

/-- The word that is begun behind an item. -/
def begun : Item → Text
  | .remainder text => text
  | _ => []

/-- Whether a blank is pending behind an item that closes a word. -/
def pending (spaced : Bool) : Item → Bool
  | .blank => true
  | item => item.lexeme?.isNone && spaced

theorem letter_or_not (item : Item) : (∃ c, item = .letter c) ∨ ∀ c, item ≠ .letter c := by
  cases item with
  | letter c => exact .inl ⟨c, rfl⟩
  | _ => exact .inr fun c => by simp

theorem mem_own {item : Item} {spaced : Bool} {token : Token} :
    token ∈ item.own spaced ↔ item.lexeme? = some token.lexeme ∧ token.spaced = spaced := by
  obtain ⟨lexeme, noted⟩ := token
  cases hitem : item.lexeme? with
  | none => simp [own, hitem]
  | some found => simp [own, hitem, eq_comm]

end Item

theorem closeWord_nil (spaced : Bool) : closeWord [] spaced = ([], spaced) := rfl

theorem closeWord_of_ne_nil {word : Text} (h : word ≠ []) (spaced : Bool) :
    closeWord word spaced = ([⟨.word word, spaced⟩], false) := by
  rw [closeWord, if_neg (by simpa using h)]

theorem gather_letter (c : Char) (word : Text) (spaced : Bool) (items : List Item) :
    gather word spaced (.letter c :: items) = gather (word ++ [c]) spaced items := by
  rw [gather]

theorem gather_cons {item : Item} (h : ∀ c, item ≠ .letter c) (word : Text) (spaced : Bool)
    (items : List Item) :
    gather word spaced (item :: items) =
      (closeWord word spaced).1 ++ (item.own (closeWord word spaced).2 ++
        gather item.begun (item.pending (closeWord word spaced).2) items) := by
  cases item with
  | letter c => exact absurd rfl (h c)
  | link opening anchor =>
    rw [gather]
    cases hname : linkName? opening anchor <;>
      simp [Item.own, Item.begun, Item.pending, Item.lexeme?, hname]
  | _ => simp [gather, Item.own, Item.begun, Item.pending, Item.lexeme?]

theorem signature_eq_ok_iff {self fragment text : Text} : signature self fragment = .ok text ↔
    ¬ "Deprecated".toList <:+: fragment ∧ visibility fragment ≠ .priv ∧
      text = render ((tokens fragment).map (Token.holdSelf self)) := by
  rw [← Text.contains_eq_false_iff (by decide), signature]
  cases Text.contains "Deprecated".toList fragment with
  | true => simp
  | false =>
    by_cases hpriv : visibility fragment = .priv
    · simp [hpriv]
    · simp [hpriv, eq_comm]

end ClassSkeleton.Declaration
