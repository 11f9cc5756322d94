import ClassSkeleton.Proofs.Markup.Words

/-!
Tags are taken out of a text from the left, each from a `<` outside of the tags before it to the
first `>` behind that. What is left has no tag, so taking them out twice is taking them out once,
and a text that closes its tags is stripped by itself, whatever stands behind it.
-/
namespace ClassSkeleton.Markup

open Text

/-- Every `<` is followed by a `>`. -/
def ClosesTags (text : Text) : Prop := ∀ back, '<' :: back <:+ text → '>' ∈ back

/-- No `<` is followed by a `>`. -/
def IsTagFree (text : Text) : Prop := ∀ back, '<' :: back <:+ text → '>' ∉ back

variable {text front inside rest : Text}

theorem forall_behind_cons {p : Text → Prop} (c : Char) (rest : Text) :
    (∀ back, '<' :: back <:+ c :: rest → p back) ↔
      (c = '<' → p rest) ∧ ∀ back, '<' :: back <:+ rest → p back := by
  constructor
  · intro h
    refine ⟨?_, fun back hback => h back (hback.trans (List.suffix_cons c rest))⟩
    rintro rfl
    exact h rest List.suffix_rfl
  · rintro ⟨hfirst, hlater⟩ back hback
    rcases List.suffix_cons_iff.mp hback with heq | hback
    · obtain ⟨rfl, rfl⟩ := List.cons.inj heq
      exact hfirst rfl
    · exact hlater back hback

theorem closesTags_cons (c : Char) (rest : Text) :
    ClosesTags (c :: rest) ↔ (c = '<' → '>' ∈ rest) ∧ ClosesTags rest := forall_behind_cons c rest

theorem isTagFree_cons (c : Char) (rest : Text) :
    IsTagFree (c :: rest) ↔ (c = '<' → '>' ∉ rest) ∧ IsTagFree rest := forall_behind_cons c rest

/-- A `>` closes whatever is open before it. -/
theorem closesTags_append_cons (front rest : Text) :
    ClosesTags (front ++ '>' :: rest) ↔ ClosesTags rest := by
  induction front with
  | nil => rw [List.nil_append, closesTags_cons]; simp
  | cons c front ih => rw [List.cons_append, closesTags_cons, ih]; simp

theorem closesTags_tag (front inside rest : Text) :
    ClosesTags (front ++ '<' :: (inside ++ '>' :: rest)) ↔ ClosesTags rest := by
  rw [← List.cons_append, ← List.append_assoc, closesTags_append_cons]

theorem isTagFree_append (h : '<' ∉ front) : IsTagFree (front ++ rest) ↔ IsTagFree rest := by
  induction front with
  | nil => rfl
  | cons c front ih =>
    obtain ⟨hc, hfront⟩ : '<' ≠ c ∧ '<' ∉ front := by simpa using h
    rw [List.cons_append, isTagFree_cons, ih hfront]
    exact and_iff_right fun heq => absurd heq.symm hc

theorem isTagFree_of_not_close (h : '>' ∉ text) : IsTagFree text :=
  fun _ hback hmem => h (hback.subset (List.mem_cons_of_mem _ hmem))

theorem isTagFree_of_not_open (h : '<' ∉ text) : IsTagFree text :=
  fun _ hback _ => h (hback.subset List.mem_cons_self)

theorem closesTags_of_not_open (h : '<' ∉ text) : ClosesTags text :=
  fun _ hback => absurd (hback.subset List.mem_cons_self) h

theorem ClosesTags.not_open (h : ClosesTags text) (hfree : IsTagFree text) : '<' ∉ text := by
  intro hmem
  obtain ⟨front, back, rfl⟩ := List.append_of_mem hmem
  exact hfree back (List.suffix_append front _) (h back (List.suffix_append front _))

theorem isTagFree_iff : IsTagFree text ↔ '>' ∉ text.dropWhile (· != '<') := by
  constructor
  · intro h hmem
    have hfirst := List.head?_dropWhile_not (· != '<') text
    cases hdrop : text.dropWhile (· != '<') with
    | nil => rw [hdrop] at hmem; exact absurd hmem List.not_mem_nil
    | cons c back =>
      rw [hdrop] at hmem hfirst
      obtain rfl : c = '<' := by simpa using hfirst
      have hback : '<' :: back <:+ text := hdrop ▸ List.dropWhile_suffix _
      exact h back hback ((List.mem_cons.mp hmem).resolve_left (by decide))
  · intro h
    have hsplit : text.takeWhile (· != '<') ++ text.dropWhile (· != '<') = text :=
      List.takeWhile_append_dropWhile
    rw [← hsplit, isTagFree_append]
    · exact isTagFree_of_not_close h
    · intro hmem
      simpa using List.mem_takeWhile_imp hmem

theorem isTagFree_or_exists_tag (text : Text) :
    IsTagFree text ∨ ∃ front inside rest, text = front ++ '<' :: (inside ++ '>' :: rest) ∧
      '<' ∉ front ∧ '>' ∉ inside := by
  by_cases hopen : '<' ∈ text
  · obtain ⟨front, back, rfl, hfront⟩ := List.eq_append_cons_of_mem hopen
    by_cases hclose : '>' ∈ back
    · obtain ⟨inside, rest, rfl, hinside⟩ := List.eq_append_cons_of_mem hclose
      exact .inr ⟨front, inside, rest, rfl, hfront, hinside⟩
    · left
      rw [isTagFree_append hfront, isTagFree_cons]
      exact ⟨fun _ => hclose, isTagFree_of_not_close hclose⟩
  · exact .inl (isTagFree_of_not_open hopen)

/-- Induction on a text tag by tag, from the left. -/
@[elab_as_elim]
theorem tag_induction {motive : Text → Prop} (free : ∀ text, IsTagFree text → motive text)
    (tag : ∀ front inside rest, '<' ∉ front → '>' ∉ inside → motive rest →
      motive (front ++ '<' :: (inside ++ '>' :: rest))) (text : Text) : motive text := by
  induction hlength : text.length using Nat.strong_induction_on generalizing text with
  | _ n ih =>
    subst hlength
    obtain hfree | ⟨front, inside, rest, rfl, hfront, hinside⟩ := isTagFree_or_exists_tag text
    · exact free text hfree
    · refine tag front inside rest hfront hinside (ih rest.length ?_ rest rfl)
      simp only [List.length_append, List.length_cons]
      omega

theorem stripTags_of_isTagFree (h : IsTagFree text) : stripTags text = text :=
  stripTags_untagged (isTagFree_iff.mp h)

theorem stripTags_tag (hfront : '<' ∉ front) (hinside : '>' ∉ inside) (rest : Text) :
    stripTags (front ++ '<' :: (inside ++ '>' :: rest)) = front ++ stripTags rest := by
  rw [stripTags, stripFrom_append _ hfront, stripFrom, if_neg (by simp), if_pos rfl,
    if_pos (by simp), stripFrom_tag _ _ hinside, stripTags]

theorem isTagFree_stripTags (text : Text) : IsTagFree (stripTags text) := by
  induction text using tag_induction with
  | free text hfree => rwa [stripTags_of_isTagFree hfree]
  | tag front inside rest hfront hinside ih =>
    rw [stripTags_tag hfront hinside]
    exact (isTagFree_append hfront).mpr ih

/-- What is left of a text that closes its tags has no opening bracket. -/
theorem closesTags_iff : ClosesTags text ↔ '<' ∉ stripTags text := by
  induction text using tag_induction with
  | free text hfree =>
    rw [stripTags_of_isTagFree hfree]
    exact ⟨fun h => h.not_open hfree, closesTags_of_not_open⟩
  | tag front inside rest hfront hinside ih =>
    rw [stripTags_tag hfront hinside, List.mem_append, not_or, ← ih, closesTags_tag]
    exact (and_iff_right hfront).symm

instance : Decidable (ClosesTags text) := decidable_of_iff _ closesTags_iff.symm

theorem stripTags_append (h : ClosesTags text) (rest : Text) :
    stripTags (text ++ rest) = stripTags text ++ stripTags rest := by
  induction text using tag_induction with
  | free text hfree =>
    have hopen := h.not_open hfree
    rw [stripTags_eq_self hopen, stripTags, stripFrom_append rest hopen, stripTags]
  | tag front inside behind hfront hinside ih =>
    have hbehind := (closesTags_tag front inside behind).mp h
    have hsplit : front ++ '<' :: (inside ++ '>' :: behind) ++ rest =
        front ++ '<' :: (inside ++ '>' :: (behind ++ rest)) := by simp
    rw [hsplit, stripTags_tag hfront hinside, stripTags_tag hfront hinside, ih hbehind,
      List.append_assoc]

/-- A tag without its angle brackets, with what stands before it and behind it. -/
structure Tag where
  before : Text
  inside : Text
  after : Text
  deriving DecidableEq, Repr

/-- The tags of a text. Each begins with a `<` before which all tags are closed, and ends with the
first `>` behind it. -/
def tags (text : Text) : List Tag :=
  (List.range text.length).filterMap fun place =>
    match text.drop place with
    | '<' :: back =>
      if ClosesTags (text.take place) ∧ '>' ∈ back then
        some ⟨text.take place, back.takeWhile (· != '>'), (back.dropWhile (· != '>')).tail⟩
      else none
    | _ => none

theorem mem_tags_iff {tag : Tag} :
    tag ∈ tags text ↔ text = tag.before ++ '<' :: (tag.inside ++ '>' :: tag.after) ∧
      ClosesTags tag.before ∧ '>' ∉ tag.inside := by
  have hsplit : ∀ {inside : Text} (after : Text), '>' ∉ inside →
      (inside ++ '>' :: after).takeWhile (· != '>') = inside ∧
        (inside ++ '>' :: after).dropWhile (· != '>') = '>' :: after := by
    intro inside after hinside
    have hpass : ∀ c ∈ inside, (c != '>') = true := by
      intro c hc
      exact bne_iff_ne.mpr fun heq => hinside (heq ▸ hc)
    rw [List.takeWhile_append_of_pos hpass, List.dropWhile_append_of_pos hpass]
    simp
  rw [tags, List.mem_filterMap]
  constructor
  · rintro ⟨place, -, h⟩
    split at h
    · rename_i back hdrop
      split at h
      · rename_i hclosed
        obtain ⟨inside, after, rfl, hinside⟩ := List.eq_append_cons_of_mem hclosed.2
        obtain ⟨htake, hrest⟩ := hsplit after hinside
        rw [htake, hrest] at h
        cases h
        refine ⟨?_, hclosed.1, hinside⟩
        rw [List.tail_cons, ← hdrop, List.take_append_drop]
      · cases h
    · cases h
  · rintro ⟨rfl, hclosed, hinside⟩
    obtain ⟨htake, hrest⟩ := hsplit tag.after hinside
    refine ⟨tag.before.length, by simp, ?_⟩
    rw [List.drop_left, List.take_left]
    simp only [hclosed, htake, hrest, List.mem_append, List.mem_cons, true_or, or_true, and_true,
      if_true, List.tail_cons]

/-- Taking out the tags leaves none, so doing it again changes nothing, and only a text without tags
is left as it is. A tag in front of a text goes, and a text that closes its tags keeps the same
characters whatever follows it. -/
theorem stripTags_once (text : Text) :
    stripTags (stripTags text) = stripTags text ∧ IsTagFree (stripTags text) ∧
      (stripTags text = text ↔ IsTagFree text) ∧
      (∀ inside, '>' ∉ inside → stripTags ('<' :: (inside ++ '>' :: text)) = stripTags text) ∧
      (ClosesTags text → ∀ rest, stripTags (text ++ rest) = stripTags text ++ stripTags rest) := by
  have hfree := isTagFree_stripTags text
  refine ⟨stripTags_of_isTagFree hfree, hfree, ⟨?_, stripTags_of_isTagFree⟩, ?_, stripTags_append⟩
  · intro h
    rwa [h] at hfree
  · intro inside hinside
    have hfront : '<' ∉ ([] : Text) := List.not_mem_nil
    exact stripTags_tag hfront hinside text

/-- A tag that holds a `<`, a `>` outside of tags, and a `<` that is never closed. -/
theorem stripTags_once_nested :
    ClosesTags "a<b <i>> c</b>".toList ∧
      stripTags ("a<b <i>> c</b>".toList ++ " < d".toList) = "a> c < d".toList ∧
      '>' ∉ "i".toList ∧ stripTags "<i>a<b <i>> c</b>".toList = "a> c".toList := by
  obtain ⟨-, -, -, htag, happend⟩ := stripTags_once "a<b <i>> c</b>".toList
  have hclosed : ClosesTags "a<b <i>> c</b>".toList := by decide
  have hinside : '>' ∉ "i".toList := by decide
  exact ⟨hclosed, (happend hclosed " < d".toList).trans (by decide), hinside,
    (htag "i".toList hinside).trans (by decide)⟩

end ClassSkeleton.Markup
