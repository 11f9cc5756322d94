import ClassSkeleton.Declaration.Signature
import ClassSkeleton.Proofs.Declaration.Gathering
import ClassSkeleton.Proofs.Markup.Plain

/-!
Where the characters of a signature come from: each stands in the declaration fragment or is one
of the few that the reading itself sets. So a declaration without an opening parenthesis has none
in its signature, while one that stands outside of tags and links is kept.
-/
namespace ClassSkeleton

namespace Text

theorem mem_of_mem_splitOn {mark text piece : Text} {c : Char} (hmark : mark ≠ [])
    (hpiece : piece ∈ splitOn mark text) (hc : c ∈ piece) : c ∈ text := by
  rw [← join_splitOn hmark text]
  exact mem_join_of_mem mark hpiece hc

theorem mem_replace {mark new text : Text} {c : Char} (hmark : mark ≠ [])
    (h : c ∈ replace mark new text) : c ∈ new ∨ c ∈ text := by
  rcases mem_join h with h | ⟨piece, hpiece, hc⟩
  · exact .inl h
  · exact .inr (mem_of_mem_splitOn hmark hpiece hc)

theorem mem_of_breakAt? {mark text before after : Text} {c : Char}
    (h : breakAt? mark text = some (before, after)) (hc : c ∈ before ∨ c ∈ after) : c ∈ text := by
  rw [eq_of_breakAt? h, List.mem_append, List.mem_append]
  rcases hc with hc | hc
  · exact .inl (.inl hc)
  · exact .inr hc

theorem mem_of_dropMark? {mark text rest : Text} {c : Char} (h : dropMark? mark text = some rest)
    (hc : c ∈ rest) : c ∈ text := by
  rw [eq_of_dropMark? h]
  exact List.mem_append_right mark hc

end Text

namespace Markup

open Text

theorem mem_of_mem_stripFrom {inside : Bool} {text : Text} {c : Char}
    (h : c ∈ stripFrom inside text) : c ∈ text := by
  induction text generalizing inside with
  | nil => exact absurd h (by simp [stripFrom])
  | cons d rest ih =>
    rw [stripFrom] at h
    split at h
    · exact List.mem_cons_of_mem d (ih h)
    · split at h
      · split at h
        · exact List.mem_cons_of_mem d (ih h)
        · exact h
      · rcases List.mem_cons.mp h with rfl | h
        · exact List.mem_cons_self
        · exact List.mem_cons_of_mem d (ih h)

theorem mem_plainText {text : Text} {c : Char} (h : c ∈ plainText text) :
    c ∈ ['<', '>', ' '] ∨ c ∈ text := by
  rcases mem_collapseFrom (mem_of_mem_trim h) with rfl | h
  · exact .inl (by decide)
  rw [decodeEntities] at h
  rcases mem_replace (by decide) h with h | h
  · exact .inl (List.mem_cons_of_mem _ (List.mem_cons_of_mem _ h))
  rcases mem_replace (by decide) h with h | h
  · exact .inl (List.mem_cons_of_mem _ (by rw [List.mem_singleton.mp h]; simp))
  rcases mem_replace (by decide) h with h | h
  · exact .inl (by rw [List.mem_singleton.mp h]; simp)
  exact .inr (mem_of_mem_stripFrom h)

end Markup

namespace TypeRef

open Text

theorem mem_of_withoutHost? {target rest : Text} {c : Char} (h : withoutHost? target = some rest)
    (hc : c ∈ rest) : c ∈ target := by
  unfold withoutHost? at h
  split at h
  · cases h
    exact hc
  · rename_i before after hhost
    obtain ⟨⟨host, path⟩, hpath, rfl⟩ := Option.map_eq_some_iff.mp h
    exact mem_of_breakAt? hhost (.inr (mem_of_breakAt? hpath (.inr hc)))

theorem mem_of_targetSegments {target segment : Text} {c : Char}
    (h : segment ∈ targetSegments target) (hc : c ∈ segment) : c ∈ target := by
  unfold targetSegments at h
  have hpage := mem_of_mem_splitOn (by simp) (List.mem_filter.mp h).1 hc
  apply (List.takeWhile_prefix _).mem
  cases hend : dropEndMark? ".html".toList (target.takeWhile (· != '#')) with
  | none =>
    rw [hend] at hpage
    exact hpage
  | some page =>
    rw [hend] at hpage
    unfold dropEndMark? at hend
    split at hend
    · cases hend
      exact List.mem_of_mem_take hpage
    · cases hend

theorem mem_of_ofTarget? {target : Text} {type : TypeRef} {c : Char}
    (h : ofTarget? target = some type) (hc : c ∈ type.ident) : c = '_' ∨ c ∈ target := by
  obtain ⟨rest, hrest, htype⟩ := Option.bind_eq_some_iff.mp h
  split at htype
  · cases htype
  · cases htype
    obtain ⟨d, hd, hcd⟩ := List.mem_map.mp hc
    split at hcd
    · exact .inl hcd.symm
    · rename_i hdot
      subst hcd
      rcases mem_join hd with hd | ⟨segment, hsegment, hd⟩
      · exact absurd (List.mem_singleton.mp hd) hdot
      · exact .inr (mem_of_mem_trim (mem_of_withoutHost? hrest (mem_of_targetSegments hsegment hd)))

theorem mem_of_ofFragment? {fragment : Text} {type : TypeRef} {c : Char}
    (h : ofFragment? fragment = some type) (hc : c ∈ type.ident) : c = '_' ∨ c ∈ fragment := by
  unfold ofFragment? at h
  split at h
  · exact mem_of_ofTarget? h hc
  · rename_i before after hhref
    obtain ⟨⟨target, rest⟩, htarget, htype⟩ := Option.bind_eq_some_iff.mp h
    rcases mem_of_ofTarget? htype hc with hc | hc
    · exact .inl hc
    · exact .inr (mem_of_breakAt? hhref (.inr (mem_of_breakAt? htarget (.inl hc))))

end TypeRef

namespace Declaration

open Text Markup

/-- The characters that the reading of a declaration sets by itself. -/
def added : Text := "<> @_".toList ++ placeholder

def spelled : Text := "<> @_".toList

/-- The text that an item can contribute to a signature. -/
def Item.source : Item → Text
  | .letter c => [c]
  | .punctuation c => [c]
  | .blank => []
  | .tag _ => []
  | .link opening anchor => opening ++ anchor.getD []
  | .remainder text => text

theorem mem_afterOpen {rest : Text} {c : Char}
    (h : c ∈ (Item.afterOpen rest).1.source ∨ c ∈ (Item.afterOpen rest).2) :
    c ∈ spelled ∨ c ∈ rest := by
  have hopen : '<' ∈ spelled := by decide
  have hclose : '>' ∈ spelled := by decide
  unfold Item.afterOpen at h
  split at h
  · rcases h with h | h
    · rcases List.mem_cons.mp h with rfl | h
      · exact .inl hopen
      · exact .inr h
    · exact absurd h List.not_mem_nil
  · rename_i inside after hbreak
    have htag : c ∈ '<' :: inside ++ ['>'] → c ∈ spelled ∨ c ∈ rest := by
      intro hc
      rcases List.mem_append.mp hc with hc | hc
      · rcases List.mem_cons.mp hc with rfl | hc
        · exact .inl hopen
        · exact .inr (mem_of_breakAt? hbreak (.inl hc))
      · exact .inl (by rw [List.mem_singleton.mp hc]; exact hclose)
    simp only at h
    split at h
    · split at h
      · rcases h with h | h
        · rw [Item.source, Option.getD_none, List.append_nil] at h
          exact htag h
        · exact .inr (mem_of_breakAt? hbreak (.inr h))
      · rename_i anchor tail hanchor
        rcases h with h | h
        · rw [Item.source, Option.getD_some, List.mem_append] at h
          rcases h with h | h
          · exact htag h
          · exact .inr (mem_of_breakAt? hbreak (.inr (mem_of_breakAt? hanchor (.inl h))))
        · exact .inr (mem_of_breakAt? hbreak (.inr (mem_of_breakAt? hanchor (.inr h))))
    · rcases h with h | h
      · exact absurd h List.not_mem_nil
      · exact .inr (mem_of_breakAt? hbreak (.inr h))

theorem mem_next {d : Char} {rest : Text} {c : Char}
    (h : c ∈ (Item.next d rest).1.source ∨ c ∈ (Item.next d rest).2) :
    c ∈ spelled ∨ c ∈ d :: rest := by
  have hmark : ∀ {mark after : Text} {special : Char}, dropMark? mark (d :: rest) = some after →
      special ∈ spelled → c ∈ [special] ∨ c ∈ after → c ∈ spelled ∨ c ∈ d :: rest := by
    intro mark after special hdrop hspecial hc
    rcases hc with hc | hc
    · exact .inl (by rw [List.mem_singleton.mp hc]; exact hspecial)
    · exact .inr (mem_of_dropMark? hdrop hc)
  have hself : c ∈ [d] ∨ c ∈ rest → c ∈ spelled ∨ c ∈ d :: rest := by
    intro hc
    exact .inr (List.mem_cons.mpr (hc.imp_left List.mem_singleton.mp))
  unfold Item.next at h
  split at h
  · exact (mem_afterOpen h).imp_right (List.mem_cons_of_mem d)
  · split at h
    · exact hmark ‹_› (by decide) h
    · split at h
      · exact hmark ‹_› (by decide) h
      · split at h
        · exact hmark ‹_› (by decide : ' ' ∈ spelled)
            (h.imp_left fun h => absurd h List.not_mem_nil)
        · split at h
          · exact hself (h.imp_left fun h => absurd h List.not_mem_nil)
          · split at h
            · exact hself h
            · exact hself h

theorem mem_items {fragment : Text} {item : Item} {c : Char} (hitem : item ∈ items fragment)
    (hc : c ∈ item.source) : c ∈ spelled ∨ c ∈ fragment := by
  induction fragment using items.induct with
  | case1 =>
    rw [items] at hitem
    exact absurd hitem List.not_mem_nil
  | case2 d rest ih =>
    rw [items] at hitem
    rcases List.mem_cons.mp hitem with rfl | hitem
    · exact mem_next (.inl hc)
    · rcases ih hitem with h | h
      · exact .inl h
      · exact mem_next (.inr h)

theorem mem_linkName? {tag : Text} {anchor : Option Text} {name : Text} {c : Char}
    (h : linkName? tag anchor = some name) (hc : c ∈ name) :
    c ∈ spelled ∨ c ∈ tag ++ anchor.getD [] := by
  unfold linkName? at h
  split at h
  · split at h
    · cases h
    · cases h
      rcases mem_plainText hc with hc | hc
      · have hplain : ∀ d ∈ ['<', '>', ' '], d ∈ spelled := forall_mem_of_all (by decide)
        exact .inl (hplain c hc)
      · exact .inr (List.mem_append_right tag hc)
  · obtain ⟨type, htype, rfl⟩ := Option.map_eq_some_iff.mp h
    have hident : c ∈ type.ident → c ∈ spelled ∨ c ∈ tag ++ anchor.getD [] := by
      intro hc
      rcases TypeRef.mem_of_ofFragment? htype hc with rfl | hc
      · exact .inl (by decide)
      · exact .inr (List.mem_append_left _ hc)
    split at hc
    · rcases List.mem_cons.mp hc with rfl | hc
      · exact .inl (by decide)
      · exact hident hc
    · exact hident hc

theorem mem_closeWord {word : Text} {spaced : Bool} {token : Token} {c : Char}
    (htoken : token ∈ (closeWord word spaced).1) (hc : c ∈ token.lexeme.text) : c ∈ word := by
  unfold closeWord at htoken
  split at htoken
  · exact absurd htoken List.not_mem_nil
  · obtain rfl := List.mem_singleton.mp htoken
    exact hc

theorem mem_lexeme? {item : Item} {lexeme : Lexeme} {c : Char} (h : item.lexeme? = some lexeme)
    (hc : c ∈ lexeme.text) : c ∈ spelled ∨ c ∈ item.source := by
  unfold Item.lexeme? at h
  split at h
  · cases h
    exact .inr hc
  · obtain ⟨name, hname, rfl⟩ := Option.map_eq_some_iff.mp h
    exact mem_linkName? hname hc
  · cases h

theorem mem_begun {item : Item} {c : Char} (h : c ∈ item.begun) : c ∈ item.source := by
  unfold Item.begun at h
  split at h
  · exact h
  · exact absurd h List.not_mem_nil

theorem mem_gather {word : Text} {spaced : Bool} {items : List Item} {token : Token} {c : Char}
    (htoken : token ∈ gather word spaced items) (hc : c ∈ token.lexeme.text) :
    c ∈ spelled ∨ c ∈ word ∨ ∃ item ∈ items, c ∈ item.source := by
  induction items generalizing word spaced with
  | nil => exact .inr (.inl (mem_closeWord htoken hc))
  | cons item items ih =>
    rcases item.letter_or_not with ⟨d, rfl⟩ | hitem
    · rw [gather_letter] at htoken
      rcases ih htoken with h | h | ⟨other, hother, h⟩
      · exact .inl h
      · rcases List.mem_append.mp h with h | h
        · exact .inr (.inl h)
        · exact .inr (.inr ⟨.letter d, List.mem_cons_self, h⟩)
      · exact .inr (.inr ⟨other, List.mem_cons_of_mem _ hother, h⟩)
    · rw [gather_cons hitem, List.mem_append, List.mem_append] at htoken
      rcases htoken with htoken | htoken | htoken
      · exact .inr (.inl (mem_closeWord htoken hc))
      · rcases mem_lexeme? (Item.mem_own.mp htoken).1 hc with h | h
        · exact .inl h
        · exact .inr (.inr ⟨item, List.mem_cons_self, h⟩)
      · rcases ih htoken with h | h | ⟨other, hother, h⟩
        · exact .inl h
        · exact .inr (.inr ⟨item, List.mem_cons_self, mem_begun h⟩)
        · exact .inr (.inr ⟨other, List.mem_cons_of_mem item hother, h⟩)

/-- Before the placeholder is put in, a token is spelled with characters of the declaration. -/
theorem mem_tokens {fragment : Text} {token : Token} {c : Char} (htoken : token ∈ tokens fragment)
    (hc : c ∈ token.lexeme.text) : c ∈ spelled ∨ c ∈ fragment := by
  rcases mem_gather htoken hc with h | h | ⟨item, hitem, h⟩
  · exact .inl h
  · exact absurd h List.not_mem_nil
  · exact mem_items hitem h

theorem mem_holdSelf {self : Text} {token : Token} {c : Char}
    (h : c ∈ (token.holdSelf self).lexeme.text) : c ∈ added ∨ c ∈ token.lexeme.text := by
  obtain ⟨lexeme, spaced⟩ := token
  cases lexeme with
  | word text =>
    change c ∈ holdSelf self text at h
    unfold holdSelf at h
    split at h
    · exact .inl (List.mem_append_right _ h)
    · exact .inr h
  | name text => exact .inr h
  | mark d => exact .inr h

theorem mem_renderFrom {previous : Option Lexeme} {tokens : List Token} {c : Char} :
    c ∈ renderFrom previous tokens → c = ' ' ∨ ∃ token ∈ tokens, c ∈ token.lexeme.text := by
  induction tokens generalizing previous with
  | nil => intro h; exact absurd h List.not_mem_nil
  | cons token tokens ih =>
    intro h
    rw [renderFrom, List.mem_append] at h
    rcases h with h | h
    · split at h
      · exact .inr ⟨token, List.mem_cons_self, h⟩
      · rcases List.mem_cons.mp h with h | h
        · exact .inl h
        · exact .inr ⟨token, List.mem_cons_self, h⟩
    · rcases ih h with h | ⟨other, hother, h⟩
      · exact .inl h
      · exact .inr ⟨other, List.mem_cons_of_mem token hother, h⟩

/-- Every character of a signature is added by the reading or stands in the declaration. -/
theorem mem_signature {self fragment signature : Text} {c : Char}
    (h : Declaration.signature self fragment = .ok signature) (hc : c ∈ signature) :
    c ∈ added ∨ c ∈ fragment := by
  obtain ⟨-, -, rfl⟩ := signature_eq_ok_iff.mp h
  rcases mem_renderFrom hc with rfl | ⟨held, hheld, hc⟩
  · exact .inl (by decide)
  obtain ⟨token, htoken, rfl⟩ := List.mem_map.mp hheld
  rcases mem_holdSelf hc with hc | hc
  · exact .inl hc
  · exact (mem_tokens htoken hc).imp_left (List.mem_append_left _)

theorem mark_mem_gather {word : Text} {spaced : Bool} {items : List Item} {c : Char}
    (h : Item.punctuation c ∈ items) :
    ∃ token ∈ gather word spaced items, token.lexeme = .mark c := by
  induction items generalizing word spaced with
  | nil => exact absurd h List.not_mem_nil
  | cons item items ih =>
    rcases item.letter_or_not with ⟨d, rfl⟩ | hitem
    · rw [gather_letter]
      exact ih ((List.mem_cons.mp h).resolve_left (by simp))
    · rw [gather_cons hitem]
      rcases List.mem_cons.mp h with rfl | hitems
      · have hown : ⟨.mark c, (closeWord word spaced).2⟩ ∈
            (Item.punctuation c).own (closeWord word spaced).2 := Item.mem_own.mpr ⟨rfl, rfl⟩
        exact ⟨_, List.mem_append_right _ (List.mem_append_left _ hown), rfl⟩
      · obtain ⟨token, htoken, hmark⟩ := ih hitems
        exact ⟨token, List.mem_append_right _ (List.mem_append_right _ htoken), hmark⟩

theorem mem_renderFrom_of_mem {previous : Option Lexeme} {tokens : List Token} {token : Token}
    {c : Char} (htoken : token ∈ tokens) (hc : c ∈ token.lexeme.text) :
    c ∈ renderFrom previous tokens := by
  induction tokens generalizing previous with
  | nil => exact absurd htoken List.not_mem_nil
  | cons first tokens ih =>
    rw [renderFrom, List.mem_append]
    rcases List.mem_cons.mp htoken with rfl | htoken
    · left
      split
      · exact hc
      · exact List.mem_cons_of_mem _ hc
    · exact .inr (ih htoken)

theorem punctuation_mem_signature {self fragment signature : Text} {c : Char}
    (h : Declaration.signature self fragment = .ok signature)
    (hc : Item.punctuation c ∈ items fragment) : c ∈ signature := by
  obtain ⟨-, -, rfl⟩ := signature_eq_ok_iff.mp h
  obtain ⟨token, htoken, hmark⟩ : ∃ token ∈ tokens fragment, token.lexeme = .mark c :=
    mark_mem_gather hc
  have hheld : (token.holdSelf self).lexeme = .mark c := by
    rw [Token.holdSelf, hmark]
    rfl
  refine mem_renderFrom_of_mem (List.mem_map_of_mem htoken) ?_
  rw [hheld]
  exact List.mem_cons_self

end Declaration

end ClassSkeleton
