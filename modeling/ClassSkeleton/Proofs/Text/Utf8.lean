import ClassSkeleton.Text.Utf8
import Mathlib.Data.List.Basic

/-!
The bytes of a text tell its characters apart. A byte either begins a character or goes on with one,
so where the bytes of a second text begin among those of a first, the first text has a seam
(`seam_of_utf8`), and one text is a beginning of another as soon as its bytes are
(`prefix_of_utf8`). Nothing is found among the bytes that is not there as text.
-/
namespace ClassSkeleton.Text

@[simp] theorem utf8_nil : utf8 [] = [] := rfl

theorem utf8_cons (c : Char) (rest : Text) :
    utf8 (c :: rest) = String.utf8EncodeChar c ++ utf8 rest := rfl

@[simp] theorem utf8_append (left right : Text) :
    utf8 (left ++ right) = utf8 left ++ utf8 right := List.flatMap_append

/-- Only the first byte of a character begins one. -/
theorem eq_nil_of_inside {c : Char} {front back : List UInt8} {first : UInt8}
    (h : String.utf8EncodeChar c = front ++ first :: back) (hfirst : first.IsUTF8FirstByte) :
    front = [] := by
  have hbound : front.length < (String.utf8EncodeChar c).length := by
    rw [h, List.length_append, List.length_cons]
    omega
  have hbyte : (String.utf8EncodeChar c)[front.length] = first := by simp [h]
  have hzero := UInt8.isUTF8FirstByte_getElem_utf8EncodeChar.mp (hbyte ▸ hfirst)
  exact List.eq_nil_of_length_eq_zero hzero

theorem exists_first (c : Char) (rest : Text) :
    ∃ first bytes, utf8 (c :: rest) = first :: bytes ∧ first.IsUTF8FirstByte := by
  have hpos : 0 < (String.utf8EncodeChar c).length := by
    rw [String.length_utf8EncodeChar]
    exact Char.utf8Size_pos c
  have hbyte : (String.utf8EncodeChar c)[0].IsUTF8FirstByte :=
    UInt8.isUTF8FirstByte_getElem_utf8EncodeChar.mpr rfl
  obtain ⟨first, bytes, hform⟩ := List.exists_cons_of_length_pos hpos
  refine ⟨first, bytes ++ utf8 rest, by rw [utf8_cons, hform, List.cons_append], ?_⟩
  simpa [hform] using hbyte

/-- Where a character begins among the bytes of a text, the text has a seam. -/
theorem seam_of_utf8 {text : Text} {front back : List UInt8} {first : UInt8}
    (h : utf8 text = front ++ first :: back) (hfirst : first.IsUTF8FirstByte) :
    ∃ before after, text = before ++ after ∧ utf8 before = front ∧ utf8 after = first :: back := by
  induction text generalizing front with
  | nil => simp at h
  | cons c rest ih =>
    rw [utf8_cons] at h
    rcases List.append_eq_append_iff.mp h with ⟨middle, hfront, hrest⟩ | ⟨middle, hchar, hback⟩
    · obtain ⟨before, after, rfl, hbefore, hafter⟩ := ih hrest
      exact ⟨c :: before, after, rfl, by rw [utf8_cons, hbefore, hfront], hafter⟩
    -- The front ends within the first character: at its end, or else before its first byte.
    · cases middle with
      | nil =>
        rw [List.append_nil] at hchar
        exact ⟨[c], rest, rfl, by simp [utf8_cons, hchar], hback.symm⟩
      | cons d middle =>
        rw [List.cons_append, List.cons.injEq] at hback
        obtain rfl := eq_nil_of_inside (hback.1 ▸ hchar) hfirst
        exact ⟨[], c :: rest, rfl, rfl, by rw [utf8_cons, h, List.nil_append]⟩

theorem char_of_utf8 {c d : Char} {left right : List UInt8}
    (h : String.utf8EncodeChar c ++ left = String.utf8EncodeChar d ++ right) : c = d := by
  have hread : ∀ (e : Char) (bytes : List UInt8),
      (String.utf8EncodeChar e ++ bytes).toByteArray.utf8DecodeChar? 0 = some e := by
    intro e bytes
    rw [List.toByteArray_append]
    exact ByteArray.utf8DecodeChar?_utf8EncodeChar_append
  have hleft := hread c left
  rw [h, hread d right] at hleft
  exact (Option.some.inj hleft).symm

theorem prefix_of_utf8 {mark text : Text} {back : List UInt8} (h : utf8 text = utf8 mark ++ back) :
    ∃ after, text = mark ++ after ∧ utf8 after = back := by
  induction mark generalizing text with
  | nil => exact ⟨text, rfl, h⟩
  | cons c mark ih =>
    cases text with
    | nil =>
      obtain ⟨first, bytes, hform, -⟩ := exists_first c mark
      simp [hform] at h
    | cons d text =>
      rw [utf8_cons, utf8_cons, List.append_assoc] at h
      obtain rfl := char_of_utf8 h
      obtain ⟨after, rfl, hafter⟩ := ih (List.append_cancel_left h)
      exact ⟨after, rfl, hafter⟩

/-- A nonempty mark that stands among the bytes of a text stands in the text. -/
theorem mark_of_utf8 {mark text : Text} {front back : List UInt8} (hmark : mark ≠ [])
    (h : utf8 text = front ++ utf8 mark ++ back) :
    ∃ before after, text = before ++ mark ++ after ∧ utf8 before = front ∧ utf8 after = back := by
  obtain ⟨c, rest, rfl⟩ := List.exists_cons_of_ne_nil hmark
  obtain ⟨first, bytes, hform, hfirst⟩ := exists_first c rest
  rw [List.append_assoc, hform, List.cons_append] at h
  obtain ⟨before, later, rfl, hbefore, hlater⟩ := seam_of_utf8 h hfirst
  rw [← List.cons_append, ← hform] at hlater
  obtain ⟨after, rfl, hafter⟩ := prefix_of_utf8 hlater
  exact ⟨before, after, by simp, hbefore, hafter⟩

end ClassSkeleton.Text
