import ClassSkeleton.Proofs.Declaration.Pieces
import ClassSkeleton.Proofs.Declaration.Provenance
import ClassSkeleton.Proofs.Markup.Decoding
import ClassSkeleton.Proofs.Markup.Tags

/-!
What the tokens of a declaration spell when they are written one after the other. The reader of a
declaration passes over tags and decodes entities as it goes, while plain text has its tags taken
out first and is decoded afterwards. As long as no tag stands in the middle of an entity, both
come to the same characters.
-/
namespace ClassSkeleton

namespace Text

def solid (text : Text) : Text := text.filter fun c => !isBlank c

theorem solid_append (left right : Text) : solid (left ++ right) = solid left ++ solid right :=
  List.filter_append left right

theorem solid_trimStart (text : Text) : solid (trimStart text) = solid text := by
  induction text with
  | nil => rfl
  | cons c rest ih =>
    rw [trimStart, List.dropWhile_cons]
    split
    · rename_i hc
      rw [← trimStart, ih, solid, solid, List.filter_cons_of_neg (by simp [hc])]
    · rfl

theorem solid_trim (text : Text) : solid (trim text) = solid text := by
  have hreverse : ∀ text, solid text.reverse = (solid text).reverse := fun text =>
    List.filter_reverse
  rw [trim, trimEnd, hreverse, ← trimStart, solid_trimStart, hreverse, List.reverse_reverse,
    solid_trimStart]

end Text

namespace Markup

open Text

theorem solid_plainText (text : Text) :
    solid (plainText text) = solid (decodeEntities (stripTags text)) := by
  rw [plainText, solid_trim]
  exact filter_collapseFrom false _

namespace Tag

/-- The tag opens a link. -/
def IsLink (tag : Tag) : Prop := "a ".toList <+: tag.inside ∧ "href=\"".toList <:+: tag.inside

/-- The tag stands in the middle of what becomes an entity when all tags are taken out. -/
def SplitsEntity (tag : Tag) : Prop :=
  ∃ entity ∈ entities, Bridges entity (stripTags tag.before) (stripTags tag.after)

instance (tag : Tag) : Decidable tag.IsLink :=
  inferInstanceAs (Decidable ("a ".toList <+: tag.inside ∧ "href=\"".toList <:+: tag.inside))

instance (tag : Tag) : Decidable tag.SplitsEntity :=
  inferInstanceAs (Decidable (∃ entity ∈ entities, _))

end Tag

end Markup

namespace Declaration

open Text Markup

def spelling (tokens : List Token) : Text := tokens.flatMap fun token => token.lexeme.text

theorem spelling_append (left right : List Token) :
    spelling (left ++ right) = spelling left ++ spelling right := List.flatMap_append

theorem spelling_closeWord (word : Text) (spaced : Bool) :
    spelling (closeWord word spaced).1 = word := by
  rw [closeWord]
  split
  · rename_i hnil
    rw [List.isEmpty_iff.mp hnil]
    rfl
  · exact List.append_nil word

theorem spelling_own {item : Item} (hitem : ∀ c, item ≠ .letter c)
    (hlink : ∀ opening anchor, item ≠ .link opening anchor) (spaced : Bool) :
    spelling (item.own spaced) ++ item.begun = item.source := by
  cases item with
  | letter c => exact absurd rfl (hitem c)
  | link opening anchor => exact absurd rfl (hlink opening anchor)
  | _ => rfl

/-- Without links, gathering items into tokens keeps the text of every item in its place. -/
theorem spelling_gather {items : List Item} (hlinks : ∀ tag anchor, Item.link tag anchor ∉ items)
    (word : Text) (spaced : Bool) :
    spelling (gather word spaced items) = word ++ items.flatMap Item.source := by
  induction items generalizing word spaced with
  | nil => rw [gather, spelling_closeWord]; simp
  | cons item items ih =>
    have ih := ih fun tag anchor hmem => hlinks tag anchor (List.mem_cons_of_mem item hmem)
    rw [List.flatMap_cons]
    rcases item.letter_or_not with ⟨c, rfl⟩ | hitem
    · rw [gather_letter, ih, List.append_assoc, Item.source]
    · have hlink : ∀ opening anchor, item ≠ .link opening anchor := by
        rintro opening anchor rfl
        exact hlinks opening anchor List.mem_cons_self
      rw [gather_cons hitem, spelling_append, spelling_append, spelling_closeWord, ih,
        ← List.append_assoc (spelling _), spelling_own hitem hlink]

/-- In front of `rest`, a text is read by itself, as items that spell `shown` without its blanks and
among which there is no link. -/
def ReadsAs (front rest shown : Text) : Prop :=
  ∃ read, items (front ++ rest) = read ++ items rest ∧
    read.flatMap Item.source = solid shown ∧ ∀ tag anchor, Item.link tag anchor ∉ read

variable {left right front rest shown others : Text}

theorem readsAs_nil (rest : Text) : ReadsAs [] rest [] := ⟨[], rfl, rfl, by simp⟩

theorem readsAs_item {item : Item} (hitem : items (front ++ rest) = item :: items rest)
    (hsource : item.source = solid shown) (hlink : ∀ tag anchor, item ≠ .link tag anchor) :
    ReadsAs front rest shown :=
  ⟨[item], hitem, by rw [List.flatMap_singleton, hsource], fun tag anchor hmem =>
    hlink tag anchor (List.mem_singleton.mp hmem).symm⟩

theorem ReadsAs.append (hleft : ReadsAs left (right ++ rest) shown)
    (hright : ReadsAs right rest others) : ReadsAs (left ++ right) rest (shown ++ others) := by
  obtain ⟨first, hfirst, hfirstSource, hfirstLink⟩ := hleft
  obtain ⟨second, hsecond, hsecondSource, hsecondLink⟩ := hright
  refine ⟨first ++ second, ?_, ?_, ?_⟩
  · rw [List.append_assoc, hfirst, hsecond, List.append_assoc]
  · rw [List.flatMap_append, hfirstSource, hsecondSource, solid_append]
  · intro tag anchor hmem
    rcases List.mem_append.mp hmem with hmem | hmem
    · exact hfirstLink tag anchor hmem
    · exact hsecondLink tag anchor hmem

theorem readsAs_entity {row : Text × Char} (hrow : row ∈ entityTable) (rest : Text) :
    ReadsAs row.1 rest [row.2] := by
  simp only [entityTable, List.mem_cons, List.not_mem_nil, or_false] at hrow
  obtain rfl | rfl | rfl := hrow
  · have hmark : '<' ∈ "<>(),[]".toList := by decide
    exact readsAs_item (items_mark hmark rest) rfl (by simp)
  · have hmark : '>' ∈ "<>(),[]".toList := by decide
    exact readsAs_item (items_mark hmark rest) rfl (by simp)
  · have hspace : Space.entity.IsProper := trivial
    exact readsAs_item (items_space hspace rest) rfl (by simp)

theorem readsAs_char {c : Char} (hopen : c ≠ '<')
    (hentity : ∀ entity ∈ entities, ¬ entity <+: c :: rest) : ReadsAs [c] rest [c] := by
  have hitem := items_cons c rest
  rw [next_of_not_entity hopen hentity] at hitem
  refine readsAs_item hitem ?_ ?_
  · by_cases hblank : isBlank c = true
    · simp [hblank, Item.source, solid]
    · by_cases hpunctuation : Item.isPunctuation c = true
      · simp [hblank, hpunctuation, Item.source, solid]
      · simp [hblank, hpunctuation, Item.source, solid]
  · intro tag anchor
    dsimp only
    split
    · simp
    · split <;> simp

theorem readsAs_tag {inside : Text} (hinside : '>' ∉ inside)
    (hlink : ¬ ("a ".toList <+: inside ∧ "href=\"".toList <:+: inside)) (rest : Text) :
    ReadsAs (Piece.tag inside).text rest [] :=
  readsAs_item (items_tag ⟨hinside, hlink⟩ rest) rfl (by simp)

theorem readsAs_text (hfront : '<' ∉ front) (hrest : ∀ c ∈ rest.head?, c = '<') :
    ReadsAs front rest (decodeEntities front) := by
  induction front using entity_induction with
  | nil => exact readsAs_nil rest
  | entity row hrow front ih =>
    rw [decodeEntities_entity hrow, ← List.singleton_append]
    exact (readsAs_entity hrow (front ++ rest)).append
      (ih fun hmem => hfront (List.mem_append_right row.1 hmem))
  | plain c front hplain ih =>
    have hc : c ≠ '<' := fun heq => hfront (by simp [heq])
    -- an entity that begins here ends before the tag
    have hentity : ∀ entity ∈ entities, ¬ entity <+: c :: (front ++ rest) := by
      intro entity hmem hlead
      apply hplain entity hmem
      cases rest with
      | nil => rwa [List.append_nil] at hlead
      | cons d rest =>
        obtain rfl : d = '<' := hrest d rfl
        have hclear : ∀ entity ∈ entities, '<' ∉ entity := by decide
        exact prefix_before (hclear entity hmem) hlead
    rw [decodeEntities_cons hplain, ← List.singleton_append, ← List.singleton_append]
    exact (readsAs_char hc hentity).append (ih fun hmem => hfront (List.mem_cons_of_mem c hmem))

/-- A text that closes its tags is read as its plain text is decoded. -/
theorem readsAs_closed {fragment : Text} (hclosed : ClosesTags fragment)
    (htags : ∀ tag ∈ tags fragment, ¬ tag.IsLink ∧ ¬ tag.SplitsEntity) :
    ReadsAs fragment [] (decodeEntities (stripTags fragment)) := by
  induction fragment using tag_induction with
  | free text hfree =>
    rw [stripTags_of_isTagFree hfree]
    exact readsAs_text (hclosed.not_open hfree) (by simp)
  | tag front inside rest hfront hinside ih =>
    have hbefore : ∀ text, stripTags (front ++ '<' :: (inside ++ '>' :: text)) =
        front ++ stripTags text := fun text => stripTags_tag hfront hinside text
    obtain ⟨hlink, hsplit⟩ := htags ⟨front, inside, rest⟩
      (mem_tags_iff.mpr ⟨rfl, closesTags_of_not_open hfront, hinside⟩)
    have hmeet : ∀ entity ∈ entities, ¬ Bridges entity front (stripTags rest) := by
      intro entity hentity hbridges
      rw [Tag.SplitsEntity, stripTags_eq_self hfront] at hsplit
      exact hsplit ⟨entity, hentity, hbridges⟩
    have hlater : ∀ tag ∈ tags rest, ¬ tag.IsLink ∧ ¬ tag.SplitsEntity := by
      intro tag htag
      obtain ⟨heq, houtside, hfirst⟩ := mem_tags_iff.mp htag
      obtain ⟨hlink, hsplit⟩ := htags
        ⟨front ++ '<' :: (inside ++ '>' :: tag.before), tag.inside, tag.after⟩
        (mem_tags_iff.mpr ⟨by simp [heq], (closesTags_tag _ _ _).mpr houtside, hfirst⟩)
      refine ⟨hlink, ?_⟩
      rintro ⟨entity, hentity, hbridges⟩
      rw [Tag.SplitsEntity, hbefore] at hsplit
      exact hsplit ⟨entity, hentity, hbridges.of_suffix (List.suffix_append front _)⟩
    have htext : front ++ '<' :: (inside ++ '>' :: rest) =
        front ++ ((Piece.tag inside).text ++ rest) := by
      simp [Piece.text]
    rw [hbefore, decodeEntities_meeting hmeet, htext]
    refine (readsAs_text hfront (by simp [Piece.text])).append ?_
    exact (readsAs_tag hinside hlink (rest ++ [])).append
      (ih ((closesTags_tag front inside rest).mp hclosed) hlater)

theorem spelling_tokens {fragment : Text} (hclosed : ClosesTags fragment)
    (htags : ∀ tag ∈ tags fragment, ¬ tag.IsLink ∧ ¬ tag.SplitsEntity) :
    spelling (tokens fragment) = solid (plainText fragment) := by
  obtain ⟨read, hread, hsource, hlinks⟩ := readsAs_closed hclosed htags
  have hitems : items fragment = read := by
    rw [← List.append_nil fragment, hread, items, List.append_nil]
  rw [tokens, hitems, spelling_gather hlinks, List.nil_append, hsource, solid_plainText]

/-- Decoding one kind of entity after the other is decoding all of them in one pass, and once is
enough. The tokens of a declaration spell its plain text without the blanks, if all its tags are
closed, none of them opens a link and none splits an entity. -/
theorem decoding_agrees :
    (∀ text, decodeEntities text = decodePass text ∧
      decodeEntities (decodeEntities text) = decodeEntities text) ∧
    ∀ fragment, ClosesTags fragment →
      (∀ tag ∈ tags fragment, ¬ tag.IsLink ∧ ¬ tag.SplitsEntity) →
      spelling (tokens fragment) = solid (plainText fragment) :=
  ⟨fun text => ⟨decodeEntities_eq_decodePass text, decodeEntities_decodeEntities text⟩,
    fun _ hclosed htags => spelling_tokens hclosed htags⟩

/-- Tags inside of words, a tag with a `<` in it, an entity that is not decoded, and the letters of
one that a blank keeps apart. -/
theorem decoding_agrees_mixed :
    let fragment :=
      "public&nbsp;<span id=\"<\">Ma</span>p&lt;K&gt; m(A&amp;&nbsp;[],\n&l <b>t</b>; c > d)".toList
    ClosesTags fragment ∧ (∀ tag ∈ tags fragment, ¬ tag.IsLink ∧ ¬ tag.SplitsEntity) ∧
      spelling (tokens fragment) = "publicMap<K>m(A&amp;[],&lt;c>d)".toList := by
  intro fragment
  have hclosed : ClosesTags fragment := by decide +kernel
  have htags : ∀ tag ∈ tags fragment, ¬ tag.IsLink ∧ ¬ tag.SplitsEntity := by decide +kernel
  exact ⟨hclosed, htags, (decoding_agrees.2 fragment hclosed htags).trans (by decide +kernel)⟩

/-- A tag in the middle of an entity is seen by the tokens only. -/
example : spelling (tokens "&l<b>t;".toList) = "&lt;".toList ∧
    solid (plainText "&l<b>t;".toList) = ['<'] := by decide +kernel

end Declaration

end ClassSkeleton
