import ClassSkeleton.Page.Front
import ClassSkeleton.Proofs.Declaration.Arguments
import ClassSkeleton.Proofs.Page.Stages

/-!
The heading and the declaration of a class as they are written: the name with the type parameters
in angle brackets, and the modifiers ahead of the keyword. Both are read back whole.
-/
namespace ClassSkeleton.ClassPage

open Text Markup Declaration

def titleOf (name : Text) : Text := "Class ".toList ++ name

theorem not_mem_titleOf {c : Char} {name : Text} (hc : c ∉ "Class ".toList) (hname : c ∉ name) :
    c ∉ titleOf name :=
  fun hmem => (List.mem_append.mp hmem).elim hc hname

/-- The visible heading, before it is escaped. -/
def headingOf (name : Text) (parameters : List Text) : Text :=
  if parameters.isEmpty then titleOf name
  else titleOf name ++ '<' :: (join [','] parameters ++ ['>'])

theorem genericsOf_headingOf {name : Text} {parameters : List Text} (hname : '<' ∉ name)
    (hentities : ∀ entity ∈ entities, ¬ entity <:+: headingOf name parameters)
    (hparameters : ∀ parameter ∈ parameters, IsParameter parameter) :
    genericsOf (escape (headingOf name parameters)) = .ok parameters := by
  have hplain : plainText (escape (headingOf name parameters)) =
      trim (collapse (headingOf name parameters)) := by
    rw [plainText, stripTags_eq_self (not_mem_escape (.inl rfl) _), decodeEntities_escape hentities]
  have htitle : '<' ∉ titleOf name := not_mem_titleOf (by decide) hname
  rw [genericsOf, hplain, headingOf]
  cases parameters with
  | nil =>
    have hnone : outerArguments? (trim (collapse (titleOf name))) = none := by
      refine outerArguments?_eq_none fun hmem => ?_
      rcases mem_collapseFrom (mem_of_mem_trim hmem) with heq | hmem
      · exact absurd heq (by decide)
      · exact htitle hmem
    simp only [List.isEmpty_nil, if_true]
    rw [hnone]
  | cons first rest =>
    have hspaced : (first :: rest).map collapse = (first :: rest).map id :=
      List.map_congr_left fun parameter hmem => (hparameters parameter hmem).spaced
    rw [if_neg (by simp), outerArguments?_plain _ htitle, collapse_join, hspaced, List.map_id]
    exact splitTopLevel_join (by simp) hparameters

/-- A modifier is a word of its own, neither the keyword nor an annotation. -/
structure IsModifier (word : Text) : Prop where
  nonempty : word ≠ []
  plain : ∀ c ∈ word, isBlank c = false ∧ c ≠ '<' ∧ c ≠ '&'
  keyword : word ≠ Kind.cls.keyword
  unmarked : ¬ ['@'] <+: word

def spacedOut (words : List Text) : Text := words.flatMap (· ++ [' '])

def declarationOf (modifiers : List Text) (rest : Text) : Text :=
  spacedOut modifiers ++ (Kind.cls.keyword ++ ' ' :: rest)

theorem not_mem_spacedOut {modifiers : List Text} {c : Char}
    (h : ∀ word ∈ modifiers, c ∉ word) (hc : c ≠ ' ') : c ∉ spacedOut modifiers := by
  intro hmem
  obtain ⟨word, hword, hmem⟩ := List.mem_flatMap.mp hmem
  rcases List.mem_append.mp hmem with hmem | hmem
  · exact h word hword hmem
  · exact hc (List.mem_singleton.mp hmem)

theorem collapseFrom_spacedOut {words : List Text}
    (h : ∀ word ∈ words, word ≠ [] ∧ ∀ c ∈ word, isBlank c = false) (afterBlank : Bool)
    {word : Text} (hne : word ≠ []) (hword : ∀ c ∈ word, isBlank c = false) (rest : Text) :
    collapseFrom afterBlank (spacedOut words ++ (word ++ rest)) =
      spacedOut words ++ (word ++ collapseFrom false rest) := by
  induction words generalizing afterBlank with
  | nil => exact collapseFrom_word afterBlank rest hne hword
  | cons first words ih =>
    obtain ⟨hfirst, hchars⟩ := h first List.mem_cons_self
    have hrest := ih (fun other hmem => h other (List.mem_cons_of_mem first hmem)) true
    rw [spacedOut] at hrest ⊢
    rw [List.flatMap_cons, List.append_assoc, List.append_assoc, List.singleton_append,
      collapseFrom_word afterBlank _ hfirst hchars, collapseFrom, if_pos (by decide),
      if_neg (by decide), hrest, List.append_assoc, List.append_assoc, List.singleton_append]

theorem trimStart_spacedOut {words : List Text}
    (h : ∀ word ∈ words, word ≠ [] ∧ ∀ c ∈ word, isBlank c = false) {word : Text} (hne : word ≠ [])
    (hword : ∀ c ∈ word, isBlank c = false) (rest : Text) :
    trimStart (spacedOut words ++ (word ++ rest)) = spacedOut words ++ (word ++ rest) := by
  cases words with
  | nil =>
    obtain ⟨c, tail, rfl⟩ := List.exists_cons_of_ne_nil hne
    exact trimStart_cons _ (hword c List.mem_cons_self)
  | cons first words =>
    obtain ⟨hfirst, hchars⟩ := h first List.mem_cons_self
    obtain ⟨c, tail, rfl⟩ := List.exists_cons_of_ne_nil hfirst
    exact trimStart_cons _ (hchars c List.mem_cons_self)

theorem splitOn_spacedOut {words : List Text} (h : ∀ word ∈ words, ' ' ∉ word) (rest : Text) :
    splitOn [' '] (spacedOut words ++ rest) = words ++ splitOn [' '] rest := by
  induction words with
  | nil => rfl
  | cons first words ih =>
    have hrest := ih fun word hmem => h word (List.mem_cons_of_mem first hmem)
    rw [spacedOut] at hrest ⊢
    rw [List.flatMap_cons, List.append_assoc, List.append_assoc, List.singleton_append,
      splitOn_cons_char _ (h first List.mem_cons_self), hrest, List.cons_append]

/-- Up to the keyword, the plain text of a declaration is the declaration. -/
theorem plainText_declarationOf {modifiers : List Text}
    (h : ∀ word ∈ modifiers, IsModifier word) (rest : Text) :
    ∃ tail, plainText (declarationOf modifiers rest) =
        spacedOut modifiers ++ (Kind.cls.keyword ++ tail) ∧
          (tail = [] ∨ ∃ more, tail = ' ' :: more) := by
  have hwords : ∀ word ∈ modifiers, word ≠ [] ∧ ∀ c ∈ word, isBlank c = false :=
    fun word hmem => ⟨(h word hmem).nonempty, fun c hc => ((h word hmem).plain c hc).1⟩
  have hkeyword : ∀ c ∈ Kind.cls.keyword, isBlank c = false := forall_mem_of_all (by decide)
  have hne : Kind.cls.keyword ≠ [] := by decide
  have hplain : ∀ c, c = '<' ∨ c = '&' → c ∉ spacedOut modifiers ++ Kind.cls.keyword := by
    intro c hc hmem
    rcases List.mem_append.mp hmem with hmem | hmem
    · refine not_mem_spacedOut (fun word hword hmem => ?_) ?_ hmem
      · have := (h word hword).plain c hmem
        rcases hc with rfl | rfl
        · exact this.2.1 rfl
        · exact this.2.2 rfl
      · rcases hc with rfl | rfl <;> decide
    · have hall : ∀ c ∈ Kind.cls.keyword, c ≠ '<' ∧ c ≠ '&' := forall_mem_of_all (by decide)
      rcases hc with rfl | rfl
      · exact (hall _ hmem).1 rfl
      · exact (hall _ hmem).2 rfl
  have hdecoded : decodeEntities (stripTags (declarationOf modifiers rest)) =
      spacedOut modifiers ++ (Kind.cls.keyword ++ decodeEntities (' ' :: stripTags rest)) := by
    rw [declarationOf, ← List.append_assoc, stripTags, stripFrom_append _ (hplain _ (.inl rfl)),
      decodeEntities_append _ (hplain _ (.inr rfl)), List.append_assoc]
    rfl
  have hspace : decodeEntities ([' '] ++ stripTags rest) =
      [' '] ++ decodeEntities (stripTags rest) :=
    decodeEntities_append _ (by decide)
  rw [List.singleton_append, List.singleton_append] at hspace
  have hcollapse : collapse (decodeEntities (stripTags (declarationOf modifiers rest))) =
      spacedOut modifiers ++
        (Kind.cls.keyword ++ ' ' :: collapseFrom true (decodeEntities (stripTags rest))) := by
    rw [hdecoded, hspace, collapse, collapseFrom_spacedOut hwords false hne hkeyword, collapseFrom,
      if_pos (by decide), if_neg (by decide)]
  refine ⟨trimEnd (' ' :: collapseFrom true (decodeEntities (stripTags rest))), ?_, ?_⟩
  · have hlast : Kind.cls.keyword = "clas".toList ++ ['s'] := by decide
    have htrim := trimEnd_append_cons (c := 's') (spacedOut modifiers ++ "clas".toList)
      (' ' :: collapseFrom true (decodeEntities (stripTags rest))) (by decide)
    rw [plainText, hcollapse, trim, trimStart_spacedOut hwords hne hkeyword, hlast]
    simpa only [List.append_assoc, List.singleton_append] using htrim
  · rcases List.prefix_cons_iff.mp (trimEnd_isPrefix
      (' ' :: collapseFrom true (decodeEntities (stripTags rest)))) with hnil | ⟨more, hmore, -⟩
    · exact .inl hnil
    · exact .inr ⟨more, hmore⟩

theorem classModifiers_declarationOf {modifiers : List Text}
    (h : ∀ word ∈ modifiers, IsModifier word) (rest : Text) :
    classModifiers .cls (declarationOf modifiers rest) = modifiers := by
  obtain ⟨tail, hplain, htail⟩ := plainText_declarationOf h rest
  have hspace : ∀ word ∈ modifiers, ' ' ∉ word := by
    intro word hmem hspace
    have := ((h word hmem).plain ' ' hspace).1
    exact absurd this (by decide)
  obtain ⟨more, hmore⟩ : ∃ more, splitOn [' '] (Kind.cls.keyword ++ tail) =
      Kind.cls.keyword :: more := by
    rcases htail with rfl | ⟨rest, rfl⟩
    · exact ⟨[], by rw [List.append_nil, splitOn_eq_self (by decide)]⟩
    · exact ⟨_, splitOn_cons_char rest (by decide)⟩
  have hsplit : splitOn [' '] (plainText (declarationOf modifiers rest)) =
      modifiers ++ Kind.cls.keyword :: more := by
    rw [hplain, splitOn_spacedOut hspace, hmore]
  have htake : (modifiers ++ Kind.cls.keyword :: more).takeWhile (· != Kind.cls.keyword) =
      modifiers := by
    rw [List.takeWhile_append_of_pos]
    · simp
    · intro word hmem
      simpa using (h word hmem).keyword
  have hfilter : (modifiers.filter fun word => !word.isEmpty && ! (['@'].isPrefixOf word)) =
      modifiers := by
    rw [List.filter_eq_self]
    intro word hmem
    rw [isPrefixOf_eq_false (h word hmem).unmarked]
    simp [(h word hmem).nonempty]
  have hcontains : (modifiers ++ Kind.cls.keyword :: more).contains Kind.cls.keyword = true := by
    simp
  rw [classModifiers, hsplit]
  simp only [hcontains, if_true]
  rw [htake, hfilter]

end ClassSkeleton.ClassPage
