import ClassSkeleton.Declaration.Signature
import ClassSkeleton.Proofs.Declaration.Gathering
import ClassSkeleton.Proofs.Markup.Plain
import Mathlib.Data.List.Infix

/-!
Declarations as they are put together: plain words, punctuation, gaps, tags and links, written
one after the other. The reader recovers exactly these pieces, and the signature is their
rendering by the spacing rule alone.
-/
namespace ClassSkeleton.Declaration

open Markup (entities not_opens_entity)
open Text (dropMark?_append dropMark?_eq_none forall_mem_of_all split_unique)

inductive Space where
  | char (c : Char)
  | entity
  deriving DecidableEq, Repr

/-- A piece of a declaration. Tags are given without their angle brackets. -/
inductive Piece where
  | word (text : Text)
  | mark (c : Char)
  | gap (spaces : List Space)
  | tag (inside : Text)
  | link (target title anchor : Text)
  deriving DecidableEq, Repr

namespace Space

def text : Space → Text
  | .char c => [c]
  | .entity => "&nbsp;".toList

def IsProper : Space → Prop
  | .char c => Text.isBlank c = true
  | .entity => True

instance : (space : Space) → Decidable space.IsProper
  | .char c => inferInstanceAs (Decidable (Text.isBlank c = true))
  | .entity => inferInstanceAs (Decidable True)

end Space

namespace Piece

def inQuotes (text : Text) : Text := '"' :: text ++ ['"']

def linkTag (target title : Text) : Text :=
  "<a href=".toList ++ inQuotes target ++ " title=".toList ++ inQuotes title ++ ['>']

def text : Piece → Text
  | .word text => text
  | .mark c => if c = '<' then "&lt;".toList else if c = '>' then "&gt;".toList else [c]
  | .gap spaces => spaces.flatMap Space.text
  | .tag inside => '<' :: inside ++ ['>']
  | .link target title anchor => linkTag target title ++ anchor ++ "</a>".toList

def isWord : Piece → Bool
  | .word _ => true
  | _ => false

def isGap : Piece → Bool
  | .gap _ => true
  | _ => false

/-- A character of a plain word. -/
def isWordChar (c : Char) : Bool := !Text.isBlank c && c ∉ "<>(),[]".toList

/-- The piece can be told from what stands around it. -/
def IsProper : Piece → Prop
  | .word text =>
    text ≠ [] ∧ (∀ c ∈ text, isWordChar c = true) ∧ ∀ entity ∈ entities, ¬ entity <:+: text
  | .mark c => c ∈ "<>(),[]".toList
  | .gap spaces => spaces ≠ [] ∧ ∀ space ∈ spaces, space.IsProper
  | .tag inside =>
    '>' ∉ inside ∧ ¬ ("a ".toList <+: inside ∧ "href=\"".toList <:+: inside)
  | .link target title anchor =>
    '"' ∉ target ∧ '>' ∉ target ∧ '"' ∉ title ∧ '>' ∉ title ∧ ¬ "</a>".toList <:+: anchor

instance : (piece : Piece) → Decidable piece.IsProper
  | .word text =>
    have := List.decidableBAll (fun c => isWordChar c = true) text
    inferInstanceAs (Decidable (text ≠ [] ∧ (∀ c ∈ text, isWordChar c = true) ∧
      ∀ entity ∈ entities, ¬ entity <:+: text))
  | .mark c => inferInstanceAs (Decidable (c ∈ "<>(),[]".toList))
  | .gap spaces => inferInstanceAs (Decidable (spaces ≠ [] ∧ ∀ space ∈ spaces, space.IsProper))
  | .tag inside => inferInstanceAs (Decidable ('>' ∉ inside ∧
      ¬ ("a ".toList <+: inside ∧ "href=\"".toList <:+: inside)))
  | .link target title anchor => inferInstanceAs (Decidable ('"' ∉ target ∧ '>' ∉ target ∧
      '"' ∉ title ∧ '>' ∉ title ∧ ¬ "</a>".toList <:+: anchor))

/-- The name that a link stands for: the anchor for a type parameter, else the type of the
target, with an `@` before an annotation. -/
def linkName (target title anchor : Text) : Option Text :=
  if "type parameter in".toList <+: title then
    if Markup.plainText anchor = [] then none else some (Markup.plainText anchor)
  else
    (TypeRef.ofTarget? target).map fun type =>
      if "annotation in".toList <+: title then '@' :: type.ident else type.ident

/-- The lexeme that a piece is read as; gaps and tags are read as none. -/
def lexeme? (self : Text) : Piece → Option Lexeme
  | .word text => some (.word (if text = self then "$Self".toList else text))
  | .mark c => some (.mark c)
  | .gap _ => none
  | .tag _ => none
  | .link target title anchor => (linkName target title anchor).map .name

def items : Piece → List Item
  | .word text => text.map .letter
  | .mark c => [.punctuation c]
  | .gap spaces => spaces.map fun _ => .blank
  | .tag inside => [.tag ('<' :: inside ++ ['>'])]
  | .link target title anchor => [.link (linkTag target title) (some anchor)]

end Piece

/-- The fragment that the pieces make up. -/
def print (pieces : List Piece) : Text := pieces.flatMap Piece.text

/-- The lexemes of the pieces, each with the note whether a gap separates it from the one before;
`spaced` says that a gap has already been met. -/
def separated (self : Text) (spaced : Bool) : List Piece → List Token
  | [] => []
  | piece :: pieces =>
    match piece.lexeme? self with
    | none => separated self (spaced || piece.isGap) pieces
    | some lexeme => ⟨lexeme, spaced⟩ :: separated self false pieces

/-- What stands between two neighbouring tokens: a space where a gap separated them, but never
before a closing mark or a comma and never after an opening mark. -/
def between (first second : Token) : Text :=
  if second.spaced ∧ second.lexeme ∉ [.mark ')', .mark ',', .mark ']'] ∧
      first.lexeme ∉ [.mark '(', .mark '<', .mark '['] then [' ']
  else []

/-- Tokens on one line. -/
def spell : List Token → Text
  | [] => []
  | first :: rest =>
    first.lexeme.text ++ (List.zip (first :: rest) rest).flatMap fun pair =>
      between pair.1 pair.2 ++ pair.2.lexeme.text

theorem items_cons (c : Char) (rest : Text) :
    items (c :: rest) = (Item.next c rest).1 :: items (Item.next c rest).2 := by
  rw [items]

theorem next_of_not_entity {c : Char} {rest : Text} (hopen : c ≠ '<')
    (hentity : ∀ entity ∈ entities, ¬ entity <+: c :: rest) :
    Item.next c rest =
      (if Text.isBlank c then .blank else if Item.isPunctuation c then .punctuation c
        else .letter c, rest) := by
  rw [Item.next, if_neg hopen, dropMark?_eq_none (hentity _ (by decide)),
    dropMark?_eq_none (hentity _ (by decide)), dropMark?_eq_none (hentity _ (by decide))]
  simp only []
  split
  · rfl
  · split <;> rfl

/-- What follows a plain word does not complete an entity that the word begins. -/
def EndsWord (rest : Text) : Prop := ∀ text, (∀ entity ∈ entities, ¬ entity <:+: text) →
    ∀ entity ∈ entities, Text.Passes entity text rest

theorem endsWord_nil : EndsWord [] :=
  fun _ htext entity hentity => Text.passes_end (htext entity hentity)

theorem endsWord_cons {c : Char} (hc : c ∉ "lgtnbsp;".toList) (rest : Text) :
    EndsWord (c :: rest) := by
  intro text htext entity hentity
  apply Text.passes_of_not_mem rest (htext entity hentity)
  intro hmem
  have htail : ∀ entity ∈ entities,
      (entity.tail.all fun d => decide (d ∈ "lgtnbsp;".toList)) = true := by decide
  exact hc (forall_mem_of_all (htail entity hentity) c hmem)

theorem items_word {text rest : Text} (hchars : ∀ c ∈ text, Piece.isWordChar c = true)
    (hpass : ∀ entity ∈ entities, Text.Passes entity text rest) :
    items (text ++ rest) = text.map .letter ++ items rest := by
  induction text with
  | nil => rfl
  | cons c text ih =>
    have hc := hchars c List.mem_cons_self
    simp only [Piece.isWordChar, Bool.and_eq_true, Bool.not_eq_true', decide_eq_true_eq] at hc
    have hpunctuation : Item.isPunctuation c = false := by
      have hmem := hc.2
      simp only [Item.isPunctuation]
      simp at hmem
      simp [hmem]
    have hopen : c ≠ '<' := by
      rintro rfl
      exact hc.2 (by decide)
    have hentity : ∀ entity ∈ entities, ¬ entity <+: c :: (text ++ rest) := fun entity he =>
      ((Text.passes_cons entity text rest c).mp (hpass entity he)).1
    rw [List.cons_append, items_cons, next_of_not_entity hopen hentity, hc.1, hpunctuation]
    simp only [Bool.false_eq_true, if_false, List.map_cons, List.cons_append]
    rw [ih (fun d hd => hchars d (List.mem_cons_of_mem c hd))
      (fun entity he => ((Text.passes_cons entity text rest c).mp (hpass entity he)).2)]

theorem items_mark {c : Char} (hc : c ∈ "<>(),[]".toList) (rest : Text) :
    items ((Piece.mark c).text ++ rest) = .punctuation c :: items rest := by
  by_cases hlt : c = '<'
  · subst hlt
    exact items_cons '&' ("lt;".toList ++ rest)
  · by_cases hgt : c = '>'
    · subst hgt
      exact items_cons '&' ("gt;".toList ++ rest)
    · have hamp : c ≠ '&' := by
        rintro rfl
        exact absurd hc (by decide)
      have hblank : ∀ d ∈ "<>(),[]".toList, Text.isBlank d = false :=
        forall_mem_of_all (by decide)
      have hpunctuation : ∀ d ∈ "<>(),[]".toList, d = '<' ∨ Item.isPunctuation d = true :=
        forall_mem_of_all (by decide)
      rw [Piece.text, if_neg hlt, if_neg hgt, List.singleton_append, items_cons,
        next_of_not_entity hlt (not_opens_entity hamp rest), hblank c hc,
        (hpunctuation c hc).resolve_left hlt]
      rfl

theorem items_space {space : Space} (h : space.IsProper) (rest : Text) :
    items (space.text ++ rest) = .blank :: items rest := by
  cases space with
  | entity => exact items_cons '&' ("nbsp;".toList ++ rest)
  | char c =>
    have hblank : Text.isBlank c = true := h
    have hopen : c ≠ '<' := by
      rintro rfl
      exact absurd hblank (by decide)
    have hamp : c ≠ '&' := by
      rintro rfl
      exact absurd hblank (by decide)
    change items (c :: rest) = _
    rw [items_cons,
      next_of_not_entity hopen (not_opens_entity hamp rest), hblank]
    rfl

theorem items_gap {spaces : List Space} (h : ∀ space ∈ spaces, space.IsProper) (rest : Text) :
    items (spaces.flatMap Space.text ++ rest) =
      (spaces.map fun _ => Item.blank) ++ items rest := by
  induction spaces with
  | nil => rfl
  | cons space spaces ih =>
    rw [List.flatMap_cons, List.append_assoc, items_space (h space List.mem_cons_self),
      ih fun other hother => h other (List.mem_cons_of_mem space hother)]
    rfl

theorem breakAt?_tag {inside : Text} (h : '>' ∉ inside) (rest : Text) :
    Text.breakAt? ['>'] (inside ++ '>' :: rest) = some (inside, rest) := by
  have hocc : ¬ ['>'] <:+: inside := by
    rw [List.singleton_infix_iff]
    exact h
  simpa using Text.breakAt?_of_apart rest (by simp) hocc (by decide)

theorem isLinkTag_iff (inside : Text) :
    Item.isLinkTag ('<' :: inside ++ ['>']) = true ↔
      "a ".toList <+: inside ∧ "href=\"".toList <:+: inside := by
  rw [Item.isLinkTag, Bool.and_eq_true, List.isPrefixOf_iff_prefix,
    Text.contains_iff (by decide)]
  have hlead : "<a ".toList <+: '<' :: inside ++ ['>'] ↔ "a ".toList <+: inside := by
    rw [show "<a ".toList = '<' :: "a ".toList from rfl, List.cons_append,
      List.prefix_cons_inj]
    constructor
    · intro h
      rcases List.prefix_concat_iff.mp (by simpa using h) with heq | h
      · have hlast := congrArg List.getLast? heq
        simp at hlast
      · exact h
    · intro h
      exact h.trans (List.prefix_append inside _)
  have hocc : "href=\"".toList <:+: '<' :: inside ++ ['>'] ↔ "href=\"".toList <:+: inside := by
    constructor
    · intro h
      rw [List.cons_append, List.infix_cons_iff] at h
      rcases h with h | h
      · rcases List.prefix_cons_iff.mp h with heq | ⟨tail, heq, -⟩
        · exact absurd heq (by decide)
        · have hhead := congrArg List.head? heq
          simp at hhead
      · rcases List.infix_concat_iff.mp (by simpa using h) with h | h
        · obtain ⟨front, heq⟩ := h
          have hlast := congrArg List.getLast? heq
          simp at hlast
        · exact h
    · intro h
      exact List.infix_cons (List.infix_append_of_infix_left h)
  rw [hlead, hocc]

theorem infix_quote_iff {q : Char} {left right before after : Text} (hleft : q ∉ left)
    (hbefore : q ∉ before) :
    left ++ q :: right <:+: before ++ q :: after ↔
      (left <:+ before ∧ right <+: after) ∨ left ++ q :: right <:+: after := by
  constructor
  · rintro ⟨front, back, h⟩
    by_cases hfront : q ∈ front
    · right
      obtain ⟨first, second, rfl, hfirst⟩ := List.eq_append_cons_of_mem hfront
      have hsplit : first ++ q :: (second ++ (left ++ q :: right) ++ back) =
          before ++ q :: after := by simpa using h
      exact ⟨second, back, (split_unique hfirst hbefore hsplit).2⟩
    · left
      have hsplit : (front ++ left) ++ q :: (right ++ back) = before ++ q :: after := by
        simpa using h
      have hnot : q ∉ front ++ left := by simp [hfront, hleft]
      obtain ⟨rfl, rfl⟩ := split_unique hnot hbefore hsplit
      exact ⟨List.suffix_append front left, List.prefix_append right back⟩
  · rintro (⟨⟨front, rfl⟩, ⟨back, rfl⟩⟩ | h)
    · exact ⟨front, back, by simp⟩
    · exact List.infix_append_of_infix_right (List.infix_cons h)

theorem prefix_before {q : Char} {word text after : Text} (hword : q ∉ word)
    (h : word <+: text ++ q :: after) : word <+: text := by
  by_cases hlen : word.length ≤ text.length
  · exact List.prefix_of_prefix_length_le h (List.prefix_append text _) hlen
  · have hlonger : text ++ [q] <+: word := by
      apply List.prefix_of_prefix_length_le _ h
      · simp only [List.length_append, List.length_singleton]
        omega
      · exact ⟨after, by simp⟩
    exact absurd (hlonger.subset (List.mem_append_right text (List.mem_singleton_self q))) hword

/-- The title of a link tag is the only quoted text that follows `title=`. -/
theorem title_infix_iff {word target title : Text} (htarget : '"' ∉ target)
    (htitle : '"' ∉ title) (hword : '"' ∉ word) (hne : word ≠ [])
    (hspace : word.head? ≠ some ' ') (hclose : word.head? ≠ some '>') :
    "title=".toList ++ '"' :: word <:+: Piece.linkTag target title ↔ word <+: title := by
  have hstart : ∀ (c : Char) (text : Text), c = ' ' ∨ c = '>' → ¬ word <+: c :: text := by
    intro c text hc hlead
    rcases List.prefix_cons_iff.mp hlead with rfl | ⟨tail, rfl, -⟩
    · exact hne rfl
    · rcases hc with rfl | rfl
      · exact hspace rfl
      · exact hclose rfl
  have hsplit : Piece.linkTag target title = "<a href=".toList ++ '"' ::
      (target ++ '"' :: (" title=".toList ++ '"' :: (title ++ '"' :: ['>']))) := by
    unfold Piece.linkTag Piece.inQuotes
    simp only [List.append_assoc, List.cons_append, List.nil_append]
  have hmark : '"' ∉ "title=".toList := by decide
  rw [hsplit, infix_quote_iff hmark (by decide), infix_quote_iff hmark htarget,
    infix_quote_iff hmark (by decide), infix_quote_iff hmark htitle]
  constructor
  · rintro (⟨hsuffix, -⟩ | ⟨-, hlead⟩ | ⟨-, hlead⟩ | ⟨-, hlead⟩ | hocc)
    · exact absurd hsuffix (by decide)
    · exact absurd hlead (hstart _ _ (Or.inl rfl))
    · exact prefix_before hword hlead
    · exact absurd hlead (hstart _ _ (Or.inr rfl))
    · have hmem : '"' ∈ "title=".toList ++ '"' :: word :=
        List.mem_append_right _ List.mem_cons_self
      exact absurd (hocc.subset hmem) (by decide)
  · intro h
    right; right; left
    exact ⟨by decide, h.trans (List.prefix_append title _)⟩

def linkInside (target title : Text) : Text :=
  "a href=".toList ++ Piece.inQuotes target ++ " title=".toList ++ Piece.inQuotes title

theorem linkTag_eq (target title : Text) :
    Piece.linkTag target title = '<' :: linkInside target title ++ ['>'] := by
  unfold Piece.linkTag linkInside
  rfl

theorem linkInside_isLink (target title : Text) :
    "a ".toList <+: linkInside target title ∧ "href=\"".toList <:+: linkInside target title := by
  refine ⟨⟨"href=".toList ++ Piece.inQuotes target ++ " title=".toList ++
    Piece.inQuotes title, ?_⟩, ⟨"a ".toList, target ++ '"' :: (" title=".toList ++
    Piece.inQuotes title), ?_⟩⟩
  · unfold linkInside
    simp only [List.append_assoc]
    rfl
  · unfold linkInside Piece.inQuotes
    simp only [List.append_assoc]
    rfl

theorem not_mem_linkInside {target title : Text} (htarget : '>' ∉ target) (htitle : '>' ∉ title) :
    '>' ∉ linkInside target title := by
  unfold linkInside Piece.inQuotes
  simp only [List.mem_append, List.mem_cons, List.not_mem_nil, or_false, htarget, htitle]
  decide

theorem items_tag {inside : Text} (h : (Piece.tag inside).IsProper) (rest : Text) :
    items ((Piece.tag inside).text ++ rest) = .tag ('<' :: inside ++ ['>']) :: items rest := by
  obtain ⟨hclose, hlink⟩ := h
  have hnot : Item.isLinkTag ('<' :: inside ++ ['>']) = false := by
    rw [← Bool.not_eq_true, isLinkTag_iff]
    exact hlink
  have htext : (Piece.tag inside).text ++ rest = '<' :: (inside ++ '>' :: rest) := by
    simp [Piece.text]
  rw [htext, items_cons, Item.next, if_pos rfl, Item.afterOpen, breakAt?_tag hclose]
  simp only [hnot, Bool.false_eq_true, if_false]

theorem items_link {target title anchor : Text} (h : (Piece.link target title anchor).IsProper)
    (rest : Text) :
    items ((Piece.link target title anchor).text ++ rest) =
      .link (Piece.linkTag target title) (some anchor) :: items rest := by
  obtain ⟨-, htarget, -, htitle, hanchor⟩ := h
  have hlink : Item.isLinkTag ('<' :: linkInside target title ++ ['>']) = true :=
    (isLinkTag_iff _).mpr (linkInside_isLink target title)
  have htext : (Piece.link target title anchor).text ++ rest =
      '<' :: (linkInside target title ++ '>' :: (anchor ++ "</a>".toList ++ rest)) := by
    rw [Piece.text, linkTag_eq]
    simp only [List.append_assoc, List.cons_append, List.nil_append]
  rw [htext, items_cons, Item.next, if_pos rfl, Item.afterOpen,
    breakAt?_tag (not_mem_linkInside htarget htitle)]
  simp only [hlink, if_true]
  rw [Text.breakAt?_of_apart rest (by decide) hanchor (by decide), linkTag_eq]

theorem ofFragment?_linkTag {target : Text} (title : Text) (htarget : '"' ∉ target) :
    TypeRef.ofFragment? (Piece.linkTag target title) = TypeRef.ofTarget? target := by
  have hsplit : Piece.linkTag target title = "<a ".toList ++ "href=\"".toList ++
      (target ++ ['"'] ++ (" title=".toList ++ Piece.inQuotes title ++ ['>'])) := by
    unfold Piece.linkTag Piece.inQuotes
    simp only [List.append_assoc]
    rfl
  have hquote : ¬ ['"'] <:+: target := by
    rw [List.singleton_infix_iff]
    exact htarget
  rw [TypeRef.ofFragment?, hsplit, Text.breakAt?_of_apart _ (by decide) (by decide) (by decide)]
  simp only []
  rw [Text.breakAt?_of_apart _ (by decide) hquote (by decide)]
  rfl

theorem linkName?_linkTag {target title : Text} (anchor : Text) (htarget : '"' ∉ target)
    (htitle : '"' ∉ title) :
    linkName? (Piece.linkTag target title) (some anchor) =
      Piece.linkName target title anchor := by
  have hparameter : Text.contains "title=\"type parameter in".toList
      (Piece.linkTag target title) = true ↔ "type parameter in".toList <+: title :=
    (Text.contains_iff (by decide) _).trans
      (title_infix_iff htarget htitle (by decide) (by decide) (by decide) (by decide))
  have hannotation : Text.contains "title=\"annotation in".toList
      (Piece.linkTag target title) = true ↔ "annotation in".toList <+: title :=
    (Text.contains_iff (by decide) _).trans
      (title_infix_iff htarget htitle (by decide) (by decide) (by decide) (by decide))
  rw [linkName?, Piece.linkName, ofFragment?_linkTag title htarget]
  simp only [hparameter, hannotation, Option.getD_some]
  split
  · cases Markup.plainText anchor <;> rfl
  · rfl

theorem items_piece {piece : Piece} (h : piece.IsProper) (hword : piece.isWord = false)
    (rest : Text) : items (piece.text ++ rest) = piece.items ++ items rest := by
  cases piece with
  | word text => exact absurd hword (by simp [Piece.isWord])
  | mark c => exact items_mark h rest
  | gap spaces => exact items_gap h.2 rest
  | tag inside => exact items_tag h rest
  | link target title anchor => exact items_link h rest

theorem endsWord_piece {piece : Piece} (h : piece.IsProper) (hword : piece.isWord = false)
    (rest : Text) : EndsWord (piece.text ++ rest) := by
  cases piece with
  | word text => exact absurd hword (by simp [Piece.isWord])
  | mark c =>
    have hfirst : ∀ d ∈ "<>(),[]".toList, ∃ e tail, (Piece.mark d).text = e :: tail ∧
        e ∉ "lgtnbsp;".toList := by
      intro d hd
      rw [Piece.text]
      split
      · exact ⟨'&', "lt;".toList, rfl, by decide⟩
      · split
        · exact ⟨'&', "gt;".toList, rfl, by decide⟩
        · have hnot : ∀ d ∈ "<>(),[]".toList, d ∉ "lgtnbsp;".toList :=
            forall_mem_of_all (by decide)
          exact ⟨d, [], rfl, hnot d hd⟩
    obtain ⟨e, tail, heq, he⟩ := hfirst c h
    rw [heq]
    exact endsWord_cons he (tail ++ rest)
  | gap spaces =>
    obtain ⟨hne, hspaces⟩ := h
    obtain ⟨space, spaces, rfl⟩ := List.exists_cons_of_ne_nil hne
    have hspace : space.IsProper := hspaces space List.mem_cons_self
    rw [Piece.text, List.flatMap_cons, List.append_assoc]
    cases space with
    | entity => exact endsWord_cons (c := '&') (by decide) _
    | char c =>
      apply endsWord_cons
      intro hmem
      have hnot : ∀ d ∈ "lgtnbsp;".toList, Text.isBlank d = false := forall_mem_of_all (by decide)
      exact absurd hspace (by rw [Space.IsProper, hnot c hmem]; simp)
  | tag inside => exact endsWord_cons (c := '<') (by decide) _
  | link target title anchor => exact endsWord_cons (c := '<') (by decide) _

/-- Plain words do not touch. -/
def WordsApart (pieces : List Piece) : Prop :=
  pieces.IsChain fun first second => ¬ (first.isWord = true ∧ second.isWord = true)

instance (pieces : List Piece) : Decidable (WordsApart pieces) :=
  inferInstanceAs (Decidable (pieces.IsChain _))

theorem WordsApart.not_word {text : Text} {piece : Piece} {pieces : List Piece}
    (h : WordsApart (.word text :: piece :: pieces)) : piece.isWord = false := by
  rw [← Bool.not_eq_true]
  exact fun hword => (List.isChain_cons_cons.mp h).1 ⟨rfl, hword⟩

theorem endsWord_print {text : Text} {pieces : List Piece} (h : ∀ piece ∈ pieces, piece.IsProper)
    (hwords : WordsApart (.word text :: pieces)) : EndsWord (print pieces) := by
  cases pieces with
  | nil => exact endsWord_nil
  | cons piece pieces =>
    have hword := hwords.not_word
    rw [print, List.flatMap_cons]
    exact endsWord_piece (h piece List.mem_cons_self) hword _

/-- The items of a declaration are those of its pieces, one after the other. -/
theorem items_print {pieces : List Piece} (h : ∀ piece ∈ pieces, piece.IsProper)
    (hwords : WordsApart pieces) : items (print pieces) = pieces.flatMap Piece.items := by
  induction pieces with
  | nil =>
    rw [print, List.flatMap_nil, List.flatMap_nil, items]
  | cons piece pieces ih =>
    have hrest : ∀ other ∈ pieces, other.IsProper := fun other hother =>
      h other (List.mem_cons_of_mem piece hother)
    have hpiece := h piece List.mem_cons_self
    have ih := ih hrest hwords.of_cons
    rw [print, List.flatMap_cons, List.flatMap_cons, ← ih]
    cases hword : piece.isWord with
    | false => exact items_piece hpiece hword (print pieces)
    | true =>
      cases piece with
      | word text =>
        exact items_word hpiece.2.1 (endsWord_print hrest hwords text hpiece.2.2)
      | mark c => simp [Piece.isWord] at hword
      | gap spaces => simp [Piece.isWord] at hword
      | tag inside => simp [Piece.isWord] at hword
      | link target title anchor => simp [Piece.isWord] at hword

theorem gather_letters (word text : Text) (spaced : Bool) (rest : List Item) :
    gather word spaced (text.map .letter ++ rest) = gather (word ++ text) spaced rest := by
  induction text generalizing word with
  | nil => simp
  | cons c text ih =>
    rw [List.map_cons, List.cons_append, gather, ih, List.append_assoc, List.singleton_append]

theorem gather_word {word : Text} {rest : List Item} (spaced : Bool) (hne : word ≠ [])
    (hrest : ∀ c, rest.head? ≠ some (.letter c)) :
    gather word spaced rest = ⟨.word word, spaced⟩ :: gather [] false rest := by
  have hclosed := closeWord_of_ne_nil hne spaced
  cases rest with
  | nil => rw [gather, gather, hclosed, closeWord_nil]
  | cons item rest =>
    have hitem : ∀ c, item ≠ .letter c := fun c hc => hrest c (congrArg some hc)
    rw [gather_cons hitem, gather_cons hitem, hclosed, closeWord_nil]
    rfl

theorem gather_gap (spaces : List Space) (spaced : Bool) (rest : List Item) :
    gather [] spaced ((spaces.map fun _ => Item.blank) ++ rest) =
      gather [] (spaced || !spaces.isEmpty) rest := by
  induction spaces generalizing spaced with
  | nil => simp
  | cons space spaces ih =>
    rw [List.map_cons, List.cons_append, gather, ih]
    simp [closeWord]

theorem head?_items {piece : Piece} (h : piece.IsProper) (hword : piece.isWord = false)
    (rest : List Item) (c : Char) : (piece.items ++ rest).head? ≠ some (.letter c) := by
  cases piece with
  | word text => exact absurd hword (by simp [Piece.isWord])
  | mark d => simp [Piece.items]
  | gap spaces =>
    obtain ⟨space, spaces, rfl⟩ := List.exists_cons_of_ne_nil h.1
    simp [Piece.items]
  | tag inside => simp [Piece.items]
  | link target title anchor => simp [Piece.items]

theorem head?_items_flatMap {text : Text} {pieces : List Piece}
    (h : ∀ piece ∈ pieces, piece.IsProper) (hwords : WordsApart (.word text :: pieces))
    (c : Char) : (pieces.flatMap Piece.items).head? ≠ some (.letter c) := by
  cases pieces with
  | nil => simp
  | cons piece pieces =>
    have hword := hwords.not_word
    rw [List.flatMap_cons]
    exact head?_items (h piece List.mem_cons_self) hword _ c

/-- Each piece gives its lexeme, and a gap is noted with the lexeme that follows it. -/
theorem gather_pieces (self : Text) {pieces : List Piece} (h : ∀ piece ∈ pieces, piece.IsProper)
    (hwords : WordsApart pieces) (spaced : Bool) :
    (gather [] spaced (pieces.flatMap Piece.items)).map (Token.holdSelf self) =
      separated self spaced pieces := by
  induction pieces generalizing spaced with
  | nil => rfl
  | cons piece pieces ih =>
    have hrest : ∀ other ∈ pieces, other.IsProper := fun other hother =>
      h other (List.mem_cons_of_mem piece hother)
    have hpiece := h piece List.mem_cons_self
    have ih := ih hrest hwords.of_cons
    rw [List.flatMap_cons, separated]
    cases piece with
    | word text =>
      rw [Piece.items, gather_letters, List.nil_append,
        gather_word spaced hpiece.1 (head?_items_flatMap hrest hwords), List.map_cons, ih]
      rfl
    | mark c =>
      rw [Piece.items, List.singleton_append, gather]
      simp only [closeWord, List.isEmpty_nil, if_true, List.nil_append, List.map_cons, ih]
      rfl
    | gap spaces =>
      obtain ⟨space, spaces, rfl⟩ := List.exists_cons_of_ne_nil hpiece.1
      rw [Piece.items, gather_gap, ih]
      rfl
    | tag inside =>
      rw [Piece.items, List.singleton_append, gather]
      simp only [closeWord, List.isEmpty_nil, if_true, List.nil_append, ih]
      simp [Piece.lexeme?, Piece.isGap]
    | link target title anchor =>
      rw [Piece.items, List.singleton_append, gather]
      simp only [linkName?_linkTag anchor hpiece.1 hpiece.2.2.1, Piece.lexeme?, closeWord,
        List.isEmpty_nil, if_true, List.nil_append]
      cases Piece.linkName target title anchor with
      | none =>
        simp only [Option.map_none, Piece.isGap, Bool.or_false]
        exact ih spaced
      | some name =>
        simp only [Option.map_some, List.map_cons, ih]
        rfl

theorem isGlued_eq (first second : Token) :
    (if isGlued (some first.lexeme) second then second.lexeme.text
      else ' ' :: second.lexeme.text) = between first second ++ second.lexeme.text := by
  obtain ⟨lexeme, spaced⟩ := first
  obtain ⟨next, separated⟩ := second
  cases separated with
  | false => simp [isGlued, between]
  | true =>
    simp only [isGlued, between]
    cases lexeme <;> cases next <;> simp <;> grind

theorem renderFrom_eq (first : Token) (rest : List Token) :
    renderFrom (some first.lexeme) rest =
      (List.zip (first :: rest) rest).flatMap fun pair =>
        between pair.1 pair.2 ++ pair.2.lexeme.text := by
  induction rest generalizing first with
  | nil => rfl
  | cons second rest ih =>
    rw [renderFrom, isGlued_eq, ih, List.zip_cons_cons, List.flatMap_cons]

theorem render_eq_spell (tokens : List Token) : render tokens = spell tokens := by
  cases tokens with
  | nil => rfl
  | cons first rest =>
    rw [render, renderFrom, renderFrom_eq]
    rfl

/-- The signature of a declaration put together from pieces is the line of their lexemes, spaced
by the gaps between them, unless the declaration is deprecated or private. -/
theorem signature_print (self : Text) (pieces : List Piece)
    (hproper : ∀ piece ∈ pieces, piece.IsProper) (hwords : WordsApart pieces)
    (hdeprecated : ¬ "Deprecated".toList <:+: print pieces)
    (hvisible : visibility (print pieces) ≠ .priv) :
    signature self (print pieces) = .ok (spell (separated self false pieces)) := by
  refine signature_eq_ok_iff.mpr ⟨hdeprecated, hvisible, ?_⟩
  rw [tokens, items_print hproper hwords, gather_pieces self hproper hwords, render_eq_spell]

def boxMaker : List Piece :=
  [.link "../lang/Safe.html".toList "annotation in lang".toList "@Safe".toList,
    .gap [.char '\n'], .word "public".toList, .gap [.entity, .char ' '], .mark '<',
    .word "E".toList, .mark '>', .gap [.entity],
    .link "../../java/util/List.html".toList "interface in java.util".toList "List".toList,
    .mark '<', .link "Box.html".toList "type parameter in Box".toList "E".toList, .mark '>',
    .gap [.entity], .tag "b".toList, .word "Box".toList, .tag "/b".toList, .mark '(',
    .word "int".toList, .mark '[', .mark ']', .gap [.entity], .word "a".toList, .mark ',',
    .gap [.char '\n', .char ' '], .link "..".toList "class".toList "?".toList,
    .word "Box".toList, .gap [.char ' '], .word "BoxOf".toList, .mark ')']

theorem signature_boxMaker :
    signature "Box".toList (print boxMaker) =
      .ok "@lang_Safe public <E> java_util_List<E> $Self(int[] a, $Self BoxOf)".toList :=
  (signature_print "Box".toList boxMaker (by decide +kernel) (by decide +kernel)
    (by decide +kernel) (by decide +kernel)).trans (by decide +kernel)

end ClassSkeleton.Declaration
