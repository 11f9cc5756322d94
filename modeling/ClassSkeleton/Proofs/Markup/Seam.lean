import ClassSkeleton.Proofs.Markup.Offset
import ClassSkeleton.Proofs.Text.Utf8
import Mathlib.Order.Bounds.Basic

/-!
Marks among the bytes of a text. A mark occurs wherever its bytes stand among those of the text;
a search goes on from a seam only, and finds the first occurrence behind it. So the text between two
marks is that between the first opening mark and the first closing mark behind its end, every offset
on the way is a seam, and the two searches that read blocks of a page agree.
-/
namespace ClassSkeleton.Markup

open Text

/-- The position stands between two characters of the text, or at one of its ends. -/
def IsSeam (text : Text) (position : Nat) : Prop :=
  ∃ front rest, text = front ++ rest ∧ width front = position

theorem isSeam_zero (text : Text) : IsSeam text 0 := ⟨[], text, rfl, rfl⟩

theorem IsSeam.le_width {text : Text} {position : Nat} (h : IsSeam text position) :
    position ≤ width text := by
  obtain ⟨front, rest, rfl, rfl⟩ := h
  rw [width_append]
  exact Nat.le_add_right _ _

theorem isSeam_of_locate {text mark : Text} {start place : Nat}
    (h : locate text mark start = some place) : IsSeam text (place + width mark) := by
  obtain ⟨front, before, after, rfl, -, rfl, -⟩ := locate_eq_some_iff.mp h
  exact ⟨front ++ before ++ mark, after, by simp, by simp [Nat.add_assoc]⟩

theorem IsSeam.of_cut {text piece : Text} {first last position : Nat}
    (hcut : cut text first last = .ok piece) (h : IsSeam piece position) :
    IsSeam text (first + position) := by
  obtain ⟨lead, back, rfl, rfl, -⟩ := eq_of_cut hcut
  obtain ⟨front, rest, rfl, rfl⟩ := h
  exact ⟨lead ++ front, rest ++ back, by simp, width_append lead front⟩

/-- The first mark behind `start` is also the first one behind every seam on the way to it. -/
theorem locate_of_isSeam {text mark : Text} {start later place : Nat} (hmark : mark ≠ [])
    (hseam : IsSeam text later) (h : locate text mark start = some place) (hstart : start ≤ later)
    (hplace : later ≤ place) : locate text mark later = some place := by
  obtain ⟨front, before, after, htext, rfl, rfl, hbreak⟩ := locate_eq_some_iff.mp h
  obtain ⟨lead, rest, htext', rfl⟩ := hseam
  obtain ⟨middle, rfl, hrest⟩ := split_of_width_le (htext.symm.trans htext') hstart
  rw [List.append_assoc before] at hrest
  rw [width_append, width_append, Nat.add_le_add_iff_left] at hplace
  obtain ⟨gap, rfl, rfl⟩ := split_of_width_le hrest.symm hplace
  have hpass := passes_of_breakAt? hbreak
  rw [passes_append] at hpass
  rw [locate_of_passes (by rw [htext', List.append_assoc gap]) hmark hpass.2]
  simp

/-- The bytes of `mark` stand at an offset among those of the text. -/
def OccursAt (text mark : Text) (place : Nat) : Prop :=
  ∃ front back, utf8 text = front ++ utf8 mark ++ back ∧ front.length = place

/-- The first place at or behind `start` where `mark` occurs. -/
def IsFirst (text mark : Text) (start place : Nat) : Prop :=
  IsLeast {offset | start ≤ offset ∧ OccursAt text mark offset} place

/-- A piece of the text between two offsets, both of them seams. -/
def LiesBetween (text piece : Text) (first last : Nat) : Prop :=
  ∃ front back, text = front ++ (piece ++ back) ∧ width front = first ∧
    width (front ++ piece) = last

section Occurrences

variable {text mark : Text} {start place : Nat}

theorem occursAt_width (before mark after : Text) :
    OccursAt (before ++ mark ++ after) mark (width before) :=
  ⟨utf8 before, utf8 after, by simp, length_utf8 before⟩

/-- A nonempty mark occurs at seams only. -/
theorem OccursAt.exists_split (hmark : mark ≠ []) (h : OccursAt text mark place) :
    ∃ before after, text = before ++ (mark ++ after) ∧ width before = place := by
  obtain ⟨front, back, hbytes, rfl⟩ := h
  obtain ⟨before, after, rfl, rfl, -⟩ := mark_of_utf8 hmark hbytes
  exact ⟨before, after, by simp, (length_utf8 before).symm⟩

theorem occursAt_append_iff (lead rest mark : Text) (place : Nat) :
    OccursAt (lead ++ rest) mark (width lead + place) ↔ OccursAt rest mark place := by
  constructor
  · rintro ⟨front, back, hbytes, hlength⟩
    rw [utf8_append, List.append_assoc] at hbytes
    obtain ⟨middle, rfl, hrest⟩ | ⟨middle, hlead, hback⟩ := List.append_eq_append_iff.mp hbytes
    · refine ⟨middle, back, by rw [hrest, List.append_assoc], ?_⟩
      rw [List.length_append, length_utf8] at hlength
      omega
    · have hnil : middle = [] := by
        apply List.eq_nil_of_length_eq_zero
        have hwidth := congrArg List.length hlead
        rw [List.length_append, length_utf8] at hwidth
        omega
      subst hnil
      rw [List.append_nil] at hlead
      refine ⟨[], back, by simpa using hback.symm, ?_⟩
      rw [← hlead, length_utf8] at hlength
      rw [List.length_nil]
      omega
  · rintro ⟨front, back, hbytes, rfl⟩
    exact ⟨utf8 lead ++ front, back, by simp [hbytes], by rw [List.length_append, length_utf8]⟩

theorem IsFirst.append (lead : Text) (h : IsFirst text mark 0 place) :
    IsFirst (lead ++ text) mark (width lead) (width lead + place) := by
  refine ⟨⟨Nat.le_add_right _ _, (occursAt_append_iff lead text mark place).mpr h.1.2⟩, ?_⟩
  rintro offset ⟨hle, hoccurs⟩
  obtain ⟨behind, rfl⟩ := Nat.exists_eq_add_of_le hle
  have hrest := (occursAt_append_iff lead text mark behind).mp hoccurs
  exact Nat.add_le_add_left (h.2 ⟨Nat.zero_le _, hrest⟩) _

theorem breakAt?_empty (text : Text) : breakAt? [] text = some ([], text) := by
  cases text <;> rfl

/-- What a search finds is the first occurrence behind a seam. -/
theorem isFirst_of_locate (h : locate text mark start = some place) :
    IsSeam text start ∧ IsFirst text mark start place := by
  obtain ⟨front, before, after, htext, rfl, rfl, hbreak⟩ := locate_eq_some_iff.mp h
  refine ⟨⟨front, _, htext, rfl⟩, ⟨?_, ?_⟩, ?_⟩
  · rw [width_append]
    exact Nat.le_add_right _ _
  · rw [htext, ← List.append_assoc, ← List.append_assoc]
    exact occursAt_width (front ++ before) mark after
  · rintro offset ⟨hle, hoccurs⟩
    by_contra hlt
    rw [width_append] at hlt
    -- The empty mark occurs inside characters too, but it is found at once.
    by_cases hmark : mark = []
    · subst hmark
      rw [breakAt?_empty] at hbreak
      cases hbreak
      rw [width_nil] at hlt
      omega
    · obtain ⟨lead, back, hsplit, rfl⟩ := hoccurs.exists_split hmark
      obtain ⟨middle, rfl, hrest⟩ := split_of_width_le (htext.symm.trans hsplit) hle
      rw [width_append] at hlt
      rw [List.append_assoc] at hrest
      obtain ⟨tail, rfl, htail⟩ := split_of_width_le hrest.symm (by omega)
      rw [width_append] at hlt
      have hne : tail ≠ [] := by
        rintro rfl
        rw [width_nil] at hlt
        omega
      exact passes_of_breakAt? hbreak middle tail rfl hne (htail ▸ List.prefix_append mark back)

theorem exists_locate (hseam : IsSeam text start) (hle : start ≤ place)
    (hoccurs : OccursAt text mark place) : ∃ first, locate text mark start = some first := by
  obtain ⟨front, rest, rfl, rfl⟩ := hseam
  rw [locate_width]
  by_cases hmark : mark = []
  · subst hmark
    exact ⟨_, by rw [breakAt?_empty]; rfl⟩
  · obtain ⟨behind, rfl⟩ := Nat.exists_eq_add_of_le hle
    have hrest := (occursAt_append_iff front rest mark behind).mp hoccurs
    obtain ⟨before, after, rfl, -⟩ := hrest.exists_split hmark
    obtain ⟨first, back, hbreak, -⟩ := breakAt?_le hmark before after
    exact ⟨_, by rw [← List.append_assoc, hbreak]; rfl⟩

theorem locate_of_isFirst (hseam : IsSeam text start) (h : IsFirst text mark start place) :
    locate text mark start = some place := by
  obtain ⟨first, hfirst⟩ := exists_locate hseam h.1.1 h.1.2
  rw [hfirst, (isFirst_of_locate hfirst).2.unique h]

theorem locate_eq_none
    (h : ¬ (IsSeam text start ∧ ∃ place, start ≤ place ∧ OccursAt text mark place)) :
    locate text mark start = none := by
  cases hlocate : locate text mark start with
  | none => rfl
  | some place =>
    obtain ⟨hseam, hfirst⟩ := isFirst_of_locate hlocate
    exact absurd ⟨hseam, place, hfirst.1⟩ h

theorem isSeam_place (h : locate text mark start = some place) : IsSeam text place := by
  obtain ⟨front, before, after, rfl, -, rfl, -⟩ := locate_eq_some_iff.mp h
  exact ⟨front ++ before, mark ++ after, by simp, rfl⟩

theorem liesBetween_iff {piece : Text} {first last : Nat} :
    LiesBetween text piece first last ↔ cut text first last = .ok piece := by
  constructor
  · rintro ⟨front, back, rfl, rfl, rfl⟩
    exact cut_width front piece back
  · exact eq_of_cut

end Occurrences

section Blocks

variable {text opening closing : Text} {start first last : Nat}

theorem extractBetween_of_locate (hopen : locate text opening start = some first)
    (hclose : locate text closing (first + width opening) = some last) :
    nextBlock text opening closing start = some (first, last + width closing) ∧
      ∃ inner, LiesBetween text inner (first + width opening) last ∧
        extractBetween text opening closing start =
          .ok ⟨inner, first + width opening, last + width closing⟩ := by
  obtain ⟨inner, hinner⟩ := cut_of_locate hclose
  refine ⟨?_, inner, liesBetween_iff.mpr hinner, ?_⟩
  · simp only [nextBlock, hopen, hclose]
  · simp only [extractBetween, hopen, hclose, hinner]

theorem extractBetween_unopened (hopen : locate text opening start = none) :
    extractBetween text opening closing start = .error (.missing opening) ∧
      nextBlock text opening closing start = none := by
  constructor
  · simp only [extractBetween, hopen]
  · simp only [nextBlock, hopen]

theorem extractBetween_unclosed (hopen : locate text opening start = some first)
    (hclose : locate text closing (first + width opening) = none) :
    extractBetween text opening closing start = .error (.missing closing) ∧
      nextBlock text opening closing start = none := by
  constructor
  · simp only [extractBetween, hopen, hclose]
  · simp only [nextBlock, hopen, hclose]

theorem isSeam_of_extractBetween {extract : Extract}
    (h : extractBetween text opening closing start = .ok extract) : IsSeam text extract.after := by
  obtain ⟨first, last, -, hclose, -, -, hafter⟩ := extractBetween_eq_ok_iff.mp h
  rw [hafter]
  exact isSeam_of_locate hclose

/-- From a seam, the first opening mark and the first closing mark behind its end decide what is
extracted. -/
theorem extractBetween_of_isFirst (hseam : IsSeam text start)
    (hfirst : IsFirst text opening start first)
    (hlast : IsFirst text closing (first + width opening) last) :
    ∃ inner, LiesBetween text inner (first + width opening) last ∧
      extractBetween text opening closing start =
        .ok ⟨inner, first + width opening, last + width closing⟩ := by
  have hopen := locate_of_isFirst hseam hfirst
  have hclose := locate_of_isFirst (isSeam_of_locate hopen) hlast
  exact (extractBetween_of_locate hopen hclose).2

end Blocks

/-- What the searches for two marks come to, by where the marks occur. -/
structure ReadsBetween (text opening closing : Text) (start : Nat) : Prop where
  ok_iff : (∃ extract, extractBetween text opening closing start = .ok extract) ↔
    IsSeam text start ∧ ∃ first, IsFirst text opening start first ∧
      ∃ place, first + width opening ≤ place ∧ OccursAt text closing place
  of_ok : ∀ extract, extractBetween text opening closing start = .ok extract →
    ∃ first last, IsFirst text opening start first ∧
      IsFirst text closing (first + width opening) last ∧
      extract.start = first + width opening ∧ extract.after = last + width closing ∧
      LiesBetween text extract.inner extract.start last ∧
      IsSeam text first ∧ IsSeam text extract.after ∧
      nextBlock text opening closing start = some (first, extract.after)
  unopened : ¬ (IsSeam text start ∧ ∃ place, start ≤ place ∧ OccursAt text opening place) →
    extractBetween text opening closing start = .error (.missing opening) ∧
      nextBlock text opening closing start = none
  unclosed : ∀ first, IsSeam text start → IsFirst text opening start first →
    (¬ ∃ place, first + width opening ≤ place ∧ OccursAt text closing place) →
    extractBetween text opening closing start = .error (.missing closing) ∧
      nextBlock text opening closing start = none

theorem readsBetween (text opening closing : Text) (start : Nat) :
    ReadsBetween text opening closing start := by
  refine ⟨⟨?_, ?_⟩, ?_, fun h => extractBetween_unopened (locate_eq_none h), ?_⟩
  · rintro ⟨extract, h⟩
    obtain ⟨first, last, hopen, hclose, -⟩ := extractBetween_eq_ok_iff.mp h
    obtain ⟨hseam, hfirst⟩ := isFirst_of_locate hopen
    exact ⟨hseam, first, hfirst, last, (isFirst_of_locate hclose).2.1⟩
  · rintro ⟨hseam, first, hfirst, place, hle, hoccurs⟩
    have hopen := locate_of_isFirst hseam hfirst
    obtain ⟨last, hclose⟩ := exists_locate (isSeam_of_locate hopen) hle hoccurs
    obtain ⟨-, inner, -, hextract⟩ := extractBetween_of_locate hopen hclose
    exact ⟨_, hextract⟩
  · intro extract h
    obtain ⟨first, last, hopen, hclose, hinner, hstart, hafter⟩ := extractBetween_eq_ok_iff.mp h
    have hblock := (extractBetween_of_locate hopen hclose).1
    rw [hstart, hafter]
    exact ⟨first, last, (isFirst_of_locate hopen).2, (isFirst_of_locate hclose).2, rfl, rfl,
      liesBetween_iff.mpr hinner, isSeam_place hopen, isSeam_of_locate hclose, hblock⟩
  · intro first hseam hfirst h
    exact extractBetween_unclosed (locate_of_isFirst hseam hfirst)
      (locate_eq_none fun hclose => h hclose.2)

/-- A text is extracted exactly from a seam with an opening mark behind it and a closing mark behind
the first of these, and it is the text between the two that come first. A text that has been put
between two marks is got back if both of them come first there. -/
theorem extractBetween_first_marks (opening closing : Text) :
    (∀ text start, ReadsBetween text opening closing start) ∧
      ∀ front inner back,
        IsFirst (front ++ opening ++ inner ++ closing ++ back) opening 0 (width front) →
        IsFirst (inner ++ closing ++ back) closing 0 (width inner) →
          extractBetween (front ++ opening ++ inner ++ closing ++ back) opening closing 0 =
            .ok ⟨inner, width (front ++ opening),
              width (front ++ opening ++ inner ++ closing)⟩ := by
  refine ⟨fun text start => readsBetween text opening closing start, ?_⟩
  intro front inner back hfirst hinner
  have hsplit : front ++ opening ++ inner ++ closing ++ back =
      (front ++ opening) ++ (inner ++ closing ++ back) := by simp
  have hlast := hinner.append (front ++ opening)
  rw [← hsplit, width_append front opening] at hlast
  obtain ⟨piece, hpiece, hextract⟩ := extractBetween_of_isFirst (isSeam_zero _) hfirst hlast
  have hput : LiesBetween (front ++ opening ++ inner ++ closing ++ back) inner
      (width front + width opening) (width front + width opening + width inner) :=
    ⟨front ++ opening, closing ++ back, by simp, width_append front opening,
      by simp [Nat.add_assoc]⟩
  have hcut := liesBetween_iff.mp hput
  rw [liesBetween_iff.mp hpiece] at hcut
  obtain rfl : piece = inner := Except.ok.inj hcut
  rw [hextract]
  simp only [width_append]

/-- Marks that overlap themselves and each other, in a text with wide characters. From the middle of
the first of these nothing is found. -/
theorem extractBetween_first_marks_overlapping :
    let text := "éaaaéaäz".toList
    IsFirst text "aa".toList 0 2 ∧ IsFirst "aéaäz".toList "aä".toList 0 3 ∧
      extractBetween text "aa".toList "aä".toList 0 = .ok ⟨"aé".toList, 4, 10⟩ ∧
      (¬ IsSeam text 1 ∧
        extractBetween text "aa".toList "aä".toList 1 = .error (.missing "aa".toList)) := by
  intro text
  have hfirst : IsFirst text "aa".toList 0 2 := (isFirst_of_locate (by decide)).2
  have hlast : IsFirst "aéaäz".toList "aä".toList 0 3 := (isFirst_of_locate (by decide)).2
  obtain ⟨hreads, hinverse⟩ := extractBetween_first_marks "aa".toList "aä".toList
  have hseam : ¬ IsSeam text 1 := by
    intro hseam
    obtain ⟨place, hplace⟩ := exists_locate hseam (by decide) hfirst.1.2
    have hnone : locate text "aa".toList 1 = none := by decide
    rw [hnone] at hplace
    cases hplace
  exact ⟨hfirst, hlast, hinverse "é".toList "aé".toList "z".toList hfirst hlast, hseam,
    ((hreads text 1).unopened fun h => hseam h.1).1⟩

end ClassSkeleton.Markup
