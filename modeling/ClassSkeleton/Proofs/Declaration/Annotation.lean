import ClassSkeleton.Proofs.Declaration.Pieces
import ClassSkeleton.Proofs.Declaration.Provenance
import ClassSkeleton.Proofs.Markup.Decoding
import ClassSkeleton.Proofs.Markup.Tags

/-!
Annotations in front of a declaration. An annotation that is one word of the declaration's plain
text is passed over where the visibility is looked for. Its name leaves no parenthesis behind in
the signature, but its list of arguments does.
-/
namespace ClassSkeleton

namespace Markup

open Text

/-- The plain text of a word in front of other text. -/
theorem plainText_word {word : Text} (hclosed : '<' ∉ stripTags word)
    (hblank : ∀ c ∈ decodeEntities (stripTags word), isBlank c = false)
    (hne : decodeEntities (stripTags word) ≠ []) (rest : Text) :
    plainText (word ++ ' ' :: rest) = decodeEntities (stripTags word) ++
      if plainText rest = [] then [] else ' ' :: plainText rest := by
  have hdecoded : decodeEntities (stripTags (word ++ ' ' :: rest)) =
      decodeEntities (stripTags word) ++ ' ' :: decodeEntities (stripTags rest) := by
    have hstrip : stripTags (word ++ ' ' :: rest) = stripTags word ++ ' ' :: stripTags rest :=
      stripTags_append (closesTags_iff.mpr hclosed) (' ' :: rest)
    rw [hstrip, decodeEntities_append_cons (by decide)]
  have hplain : ∀ text,
      plainText text = trimEnd (collapseFrom true (decodeEntities (stripTags text))) :=
    fun text => tidy_eq _
  obtain ⟨front, last, hword⟩ :
      ∃ front last, decodeEntities (stripTags word) = front ++ [last] := by
    rcases List.eq_nil_or_concat' (decodeEntities (stripTags word)) with hnil | hconcat
    · exact absurd hnil hne
    · exact hconcat
  have hlast : isBlank last = false := by
    apply hblank
    rw [hword]
    simp
  -- the space behind the word is trimmed exactly if nothing else follows
  have htrim : trimEnd (' ' :: collapseFrom true (decodeEntities (stripTags rest))) =
      if plainText rest = [] then [] else ' ' :: plainText rest := by
    have happend := trimEnd_append [' '] (collapseFrom true (decodeEntities (stripTags rest)))
    rw [← hplain, List.singleton_append] at happend
    rw [happend]
    split
    · decide
    · rfl
  rw [hplain, hdecoded, collapseFrom_word true _ hne hblank, collapseFrom, if_pos (by decide),
    if_neg (by decide), hword, List.append_assoc, List.singleton_append,
    trimEnd_append_cons front _ hlast, htrim, List.append_assoc, List.singleton_append]

end Markup

namespace Declaration

open Text Markup

/-- An annotation: its name without the `@`, and its arguments without the parentheses around
them. -/
structure Marker where
  name : Text
  arguments : Option Text

/-- Every parenthesis is closed, and none closed that is not open; `depth` of them are open. -/
def isBalanced (depth : Nat) : Text → Bool
  | [] => depth == 0
  | c :: rest =>
    if c = '(' then isBalanced (depth + 1) rest
    else if c = ')' then depth != 0 && isBalanced (depth - 1) rest
    else isBalanced depth rest

namespace Marker

def text (marker : Marker) : Text :=
  '@' :: marker.name ++ marker.arguments.elim [] fun arguments => '(' :: arguments ++ [')']

/-- The annotation has a plain name, the parentheses of its arguments match, and it does not
withdraw what it stands in front of. -/
structure IsProper (marker : Marker) : Prop where
  name : ∀ c ∈ marker.name, Piece.isWordChar c = true
  entity : ∀ entity ∈ entities, ¬ entity <:+: marker.name
  balanced : ∀ arguments ∈ marker.arguments, isBalanced 0 arguments = true
  published : ¬ "Deprecated".toList <:+: marker.text

/-- The annotation is one word of the plain text: its tags are closed in it, and it has no
blanks. -/
structure IsWord (marker : Marker) : Prop where
  closed : '<' ∉ stripTags marker.text
  solid : ∀ c ∈ decodeEntities (stripTags marker.text), isBlank c = false

/-- The annotation holds none of the words for a visibility. -/
def IsSilent (marker : Marker) : Prop :=
  ∀ word ∈ ["public".toList, "protected".toList, "private".toList], ¬ word <:+: marker.text

instance (marker : Marker) : Decidable marker.IsSilent :=
  inferInstanceAs (Decidable (∀ word ∈ _, _))

/-- The fragment with the annotation in front of it. -/
def before (marker : Marker) (fragment : Text) : Text := marker.text ++ ' ' :: fragment

variable {marker : Marker}

theorem splitOn_before (h : marker.IsWord) (fragment : Text) :
    ∃ tail, splitOn [' '] (plainText (marker.before fragment)) =
      ('@' :: tail) ::
        if plainText fragment = [] then [] else splitOn [' '] (plainText fragment) := by
  have hstrip : stripTags marker.text = '@' :: stripFrom false marker.text.tail := rfl
  have hword : decodeEntities (stripTags marker.text) =
      '@' :: decodeEntities (stripFrom false marker.text.tail) := by
    rw [hstrip, ← List.singleton_append, decodeEntities_append _ (by decide),
      List.singleton_append]
  have hspace : ' ' ∉ decodeEntities (stripTags marker.text) := by
    intro hmem
    exact absurd (h.solid ' ' hmem) (by decide)
  refine ⟨decodeEntities (stripFrom false marker.text.tail), ?_⟩
  rw [before, plainText_word h.closed h.solid (by simp [hword]), ← hword]
  split
  · rw [List.append_nil, splitOn_eq_self hspace]
  · exact splitOn_cons_char _ hspace

theorem visibility_before (h : marker.IsWord) (fragment : Text) :
    visibility (marker.before fragment) = visibility fragment := by
  obtain ⟨tail, hsplit⟩ := splitOn_before h fragment
  have hskip : ∀ words, visibilityOfWords (('@' :: tail) :: words) = visibilityOfWords words := by
    intro words
    rw [visibilityOfWords, if_neg (by simp), if_neg (by simp), if_neg (by simp), if_pos (by simp)]
  rw [visibility, visibility, hsplit, hskip]
  split
  · rename_i hnil
    rw [hnil]
    decide
  · rfl

end Marker

theorem signature_eq_priv_iff (self fragment : Text) :
    signature self fragment = .error .priv ↔
      ¬ "Deprecated".toList <:+: fragment ∧ visibility fragment = .priv := by
  rw [← contains_eq_false_iff (by decide), signature]
  cases contains "Deprecated".toList fragment with
  | true => simp
  | false =>
    by_cases hpriv : visibility fragment = .priv
    · simp [hpriv]
    · simp [hpriv]

theorem lexemes_gather (word : Text) (spaced other : Bool) (items : List Item) :
    (gather word spaced items).map Token.lexeme = (gather word other items).map Token.lexeme := by
  have hclosed : ∀ (word : Text) (spaced other : Bool),
      (closeWord word spaced).1.map Token.lexeme = (closeWord word other).1.map Token.lexeme := by
    intro word spaced other
    rw [closeWord, closeWord]
    split <;> rfl
  induction items generalizing word spaced other with
  | nil => exact hclosed word spaced other
  | cons item items ih =>
    rcases item.letter_or_not with ⟨c, rfl⟩ | hitem
    · rw [gather_letter, gather_letter, ih _ spaced other]
    · have hown : ∀ spaced, (item.own spaced).map Token.lexeme = item.lexeme?.toList := by
        intro spaced
        cases hlexeme : item.lexeme? <;> simp [Item.own, hlexeme]
      rw [gather_cons hitem, gather_cons hitem, List.map_append, List.map_append, List.map_append,
        List.map_append, hclosed word spaced other, hown, hown, ih item.begun]

theorem mem_render_iff {tokens : List Token} {c : Char} (hc : c ≠ ' ') :
    c ∈ render tokens ↔ ∃ token ∈ tokens, c ∈ token.lexeme.text := by
  constructor
  · intro h
    exact (mem_renderFrom h).resolve_left hc
  · rintro ⟨token, htoken, h⟩
    exact mem_renderFrom_of_mem htoken h

namespace Marker

variable {marker : Marker}

theorem isWordChar_word (h : marker.IsProper) :
    ∀ c ∈ '@' :: marker.name, Piece.isWordChar c = true := by
  intro c hc
  rcases List.mem_cons.mp hc with rfl | hc
  · decide
  · exact h.name c hc

theorem items_before (h : marker.IsProper) (rest : Text) (c : Char) (hc : c ∉ "lgtnbsp;".toList) :
    items ('@' :: marker.name ++ c :: rest) =
      ('@' :: marker.name).map .letter ++ items (c :: rest) := by
  apply items_word (isWordChar_word h)
  apply endsWord_cons hc rest
  intro entity hentity hocc
  obtain ⟨tail, hshape, -⟩ := entity_shape hentity
  rcases List.infix_cons_iff.mp hocc with hlead | hlater
  · rw [hshape] at hlead
    exact absurd (List.cons_prefix_cons.mp hlead).1 (by decide)
  · exact h.entity entity hentity hlater

theorem lexemes_before (h : marker.IsProper) (hnone : marker.arguments = none)
    (fragment : Text) : (tokens (marker.before fragment)).map Token.lexeme =
      .word ('@' :: marker.name) :: (tokens fragment).map Token.lexeme := by
  have htext : marker.before fragment = '@' :: marker.name ++ ' ' :: fragment := by
    rw [before, text, hnone, Option.elim_none, List.append_nil]
  have hspace : items (' ' :: fragment) = .blank :: items fragment :=
    items_space (show (Space.char ' ').IsProper from rfl) fragment
  rw [htext, tokens, items_before h fragment ' ' (by decide), hspace, gather_letters,
    List.nil_append, gather_word false (by simp) (by simp), List.map_cons, tokens]
  apply congrArg (Lexeme.word ('@' :: marker.name) :: ·)
  exact lexemes_gather [] true false (items fragment)

theorem punctuation_mem_before (h : marker.IsProper) (hsome : marker.arguments.isSome)
    (fragment : Text) : Item.punctuation '(' ∈ items (marker.before fragment) := by
  obtain ⟨arguments, harguments⟩ := Option.isSome_iff_exists.mp hsome
  have htext : marker.before fragment =
      '@' :: marker.name ++ '(' :: (arguments ++ ')' :: ' ' :: fragment) := by
    rw [before, text, harguments, Option.elim_some]
    simp
  have hparen : '(' ∈ "<>(),[]".toList := by decide
  have hmark : items ('(' :: (arguments ++ ')' :: ' ' :: fragment)) =
      .punctuation '(' :: items (arguments ++ ')' :: ' ' :: fragment) := items_mark hparen _
  rw [htext, items_before h _ '(' (by decide), hmark]
  simp

theorem deprecated_before (h : marker.IsProper) (fragment : Text) :
    "Deprecated".toList <:+: marker.before fragment ↔ "Deprecated".toList <:+: fragment := by
  rw [before, infix_append_cons_iff (by decide) (by decide)]
  exact or_iff_right h.published

/-- An annotation that is one word does not make a private member a published one. -/
theorem signature_before_eq_priv_iff (h : marker.IsProper) (hword : marker.IsWord)
    (self fragment : Text) :
    signature self (marker.before fragment) = .error .priv ↔
      signature self fragment = .error .priv := by
  rw [signature_eq_priv_iff, signature_eq_priv_iff, deprecated_before h, visibility_before hword]

/-- A declaration without parentheses is still accepted behind an annotation that is one word, and
its signature then has a parenthesis exactly if the annotation has arguments. -/
theorem signature_before (h : marker.IsProper) (hword : marker.IsWord)
    {self fragment found : Text} (hfound : signature self fragment = .ok found)
    (hplain : '(' ∉ found) :
    ∃ annotated, signature self (marker.before fragment) = .ok annotated ∧
      ('(' ∈ annotated ↔ marker.arguments.isSome) := by
  obtain ⟨hdeprecated, hvisible, rfl⟩ := signature_eq_ok_iff.mp hfound
  have haccepted : signature self (marker.before fragment) =
      .ok (render ((tokens (marker.before fragment)).map (Token.holdSelf self))) := by
    rw [signature_eq_ok_iff, deprecated_before h, visibility_before hword]
    exact ⟨hdeprecated, hvisible, rfl⟩
  refine ⟨_, haccepted, ?_⟩
  constructor
  · intro hmem
    rw [Option.isSome_iff_ne_none]
    intro hnone
    obtain ⟨held, hheld, hparen⟩ := (mem_render_iff (by decide)).mp hmem
    obtain ⟨token, htoken, rfl⟩ := List.mem_map.mp hheld
    -- the token is the word of the annotation, or one of the declaration's own
    have hlexeme : token.lexeme ∈ (tokens (marker.before fragment)).map Token.lexeme :=
      List.mem_map_of_mem htoken
    rw [lexemes_before h hnone] at hlexeme
    rcases List.mem_cons.mp hlexeme with hname | hown
    · rcases mem_holdSelf hparen with hadded | hparen
      · exact absurd hadded (by decide)
      · rw [hname] at hparen
        exact absurd (isWordChar_word h '(' hparen) (by decide)
    · obtain ⟨other, hother, heq⟩ := List.mem_map.mp hown
      apply hplain
      refine (mem_render_iff (by decide)).mpr ⟨other.holdSelf self, List.mem_map_of_mem hother, ?_⟩
      have hsame : (other.holdSelf self).lexeme = (token.holdSelf self).lexeme := by
        rw [Token.holdSelf, Token.holdSelf, heq]
      rw [hsame]
      exact hparen
  · intro hsome
    exact punctuation_mem_signature haccepted (punctuation_mem_before h hsome fragment)

end Marker

end Declaration

end ClassSkeleton
