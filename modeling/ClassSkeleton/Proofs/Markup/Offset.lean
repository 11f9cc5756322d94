import ClassSkeleton.Markup.Cursor
import ClassSkeleton.Proofs.Text.Occurrence

/-!
Byte offsets of a page that is put together from parts. An offset at the seam of two parts
addresses the second part, so a search from there is a search in that part. A search that
succeeds in the first part is not changed by what is put behind it, and a search that ends
inside the first part has succeeded in it alone.
-/
namespace ClassSkeleton

namespace Text

theorem charsFrom?_width (seen : Nat) (front rest : Text) :
    charsFrom? seen (width front) (front ++ rest) = some (seen + front.length) := by
  induction front generalizing seen with
  | nil => simp [charsFrom?]
  | cons c front ih =>
    obtain ⟨bytes, hbytes⟩ : ∃ bytes, width (c :: front) = bytes + 1 := by
      have hpos := Char.utf8Size_pos c
      exact ⟨width (c :: front) - 1, by rw [width_cons]; omega⟩
    have hrest : bytes + 1 - c.utf8Size = width front := by
      rw [← hbytes, width_cons]
      omega
    rw [hbytes, List.cons_append, charsFrom?, if_pos (by rw [← hbytes, width_cons]; omega), hrest,
      ih, List.length_cons, Nat.add_assoc, Nat.add_comm 1]

theorem dropBytes?_width (front rest : Text) :
    dropBytes? (width front) (front ++ rest) = some rest := by
  rw [dropBytes?, chars?, charsFrom?_width]
  simp

theorem takeBytes?_width (front rest : Text) :
    takeBytes? (width front) (front ++ rest) = some front := by
  rw [takeBytes?, chars?, charsFrom?_width]
  simp

theorem eq_nil_of_width {text : Text} (h : width text = 0) : text = [] := by
  cases text with
  | nil => rfl
  | cons c rest =>
    have hpos := Char.utf8Size_pos c
    rw [width_cons] at h
    omega

/-- Of two splits of one text, the one at the smaller offset splits the first part of the
other. -/
theorem split_of_width_le {front rest left right : Text} (h : front ++ rest = left ++ right)
    (hle : width front ≤ width left) :
    ∃ middle, left = front ++ middle ∧ rest = middle ++ right := by
  rcases List.append_eq_append_iff.mp h with ⟨middle, hleft, hrest⟩ | ⟨middle, hfront, hright⟩
  · exact ⟨middle, hleft, hrest⟩
  · rw [hfront, width_append] at hle
    have hnil : middle = [] := eq_nil_of_width (by omega)
    subst hnil
    exact ⟨[], by simpa using hfront.symm, by simpa using hright.symm⟩

theorem Passes.of_mark {mark gap after : Text} (h : Passes mark gap (mark ++ after))
    (other : Text) : Passes mark gap (mark ++ other) := by
  intro front back heq hne hlead
  apply h front back heq hne
  rw [← List.append_assoc] at hlead ⊢
  have hback : mark <+: back ++ mark :=
    List.prefix_of_prefix_length_le hlead (List.prefix_append _ other) (by simp)
  exact hback.trans (List.prefix_append _ after)

theorem breakAt?_of_append {mark text more before after : Text} (hmark : mark ≠ [])
    (h : breakAt? mark (text ++ more) = some (before, after))
    (hle : width (before ++ mark) ≤ width text) :
    ∃ rest, breakAt? mark text = some (before, rest) ∧ after = rest ++ more := by
  obtain ⟨rest, htext, hafter⟩ := split_of_width_le (eq_of_breakAt? h).symm hle
  refine ⟨rest, ?_, hafter⟩
  rw [htext]
  exact breakAt?_of_passes_mark rest hmark ((passes_of_breakAt? h).of_mark rest)

theorem breakAt?_le {mark : Text} (hmark : mark ≠ []) (before after : Text) :
    ∃ first rest, breakAt? mark (before ++ mark ++ after) = some (first, rest) ∧
      width first ≤ width before := by
  induction before with
  | nil => exact ⟨[], after, by simpa using breakAt?_mark hmark after, Nat.le_refl _⟩
  | cons c before ih =>
    rw [List.cons_append, List.cons_append, breakAt?]
    split
    · exact ⟨[], _, rfl, by simp⟩
    · obtain ⟨first, rest, hbreak, hle⟩ := ih
      refine ⟨c :: first, rest, by rw [hbreak]; rfl, ?_⟩
      rw [width_cons, width_cons]
      omega

end Text

namespace Markup

open Text

/-- A search from a seam is a search in the part behind it. -/
theorem locate_width (front rest mark : Text) :
    locate (front ++ rest) mark (width front) =
      (breakAt? mark rest).map fun parts => width (front ++ parts.1) := by
  rw [locate, dropBytes?_width, Option.bind_some, findFrom_eq_breakAt?]
  simp only [width_append]

/-- Behind text that it passes, a mark is found where it stands. -/
theorem locate_of_passes {text front gap mark rest : Text}
    (htext : text = front ++ (gap ++ mark ++ rest)) (hmark : mark ≠ [])
    (hgap : Passes mark gap (mark ++ rest)) :
    locate text mark (width front) = some (width (front ++ gap)) := by
  rw [htext, locate_width, breakAt?_of_passes_mark rest hmark hgap]
  rfl

theorem cut_width (front middle back : Text) :
    cut (front ++ (middle ++ back)) (width front) (width (front ++ middle)) = .ok middle := by
  have hlength : width (front ++ middle) - width front = width middle := by
    rw [width_append]
    omega
  rw [cut, slice?, if_pos (by rw [width_append]; omega), dropBytes?_width, Option.bind_some,
    hlength, takeBytes?_width]

theorem locate_eq_some_iff {text mark : Text} {start place : Nat} :
    locate text mark start = some place ↔
      ∃ front before after, text = front ++ (before ++ mark ++ after) ∧ width front = start ∧
        width (front ++ before) = place ∧
        breakAt? mark (before ++ mark ++ after) = some (before, after) := by
  constructor
  · intro h
    obtain ⟨rest, hrest, hfind⟩ := Option.bind_eq_some_iff.mp h
    obtain ⟨front, rfl, rfl⟩ := eq_of_dropBytes? hrest
    rw [findFrom_eq_breakAt?] at hfind
    obtain ⟨⟨before, after⟩, hbreak, hplace⟩ := Option.map_eq_some_iff.mp hfind
    have hrest := eq_of_breakAt? hbreak
    refine ⟨front, before, after, by rw [hrest], rfl, ?_, by rw [← hrest]; exact hbreak⟩
    rw [width_append]
    exact hplace
  · rintro ⟨front, before, after, rfl, rfl, rfl, hbreak⟩
    rw [locate_width, hbreak]
    rfl

theorem locate_append {text mark : Text} {start place : Nat} (hmark : mark ≠ [])
    (h : locate text mark start = some place) (more : Text) :
    locate (text ++ more) mark start = some place := by
  obtain ⟨front, before, after, rfl, rfl, rfl, hbreak⟩ := locate_eq_some_iff.mp h
  rw [List.append_assoc, locate_width, breakAt?_append hmark hbreak more]
  rfl

theorem locate_of_append {text mark more : Text} {start place : Nat} (hmark : mark ≠ [])
    (h : locate (text ++ more) mark start = some place)
    (hle : place + width mark ≤ width text) : locate text mark start = some place := by
  obtain ⟨front, before, after, htext, rfl, rfl, hbreak⟩ := locate_eq_some_iff.mp h
  rw [width_append] at hle
  obtain ⟨rest, rfl, hrest⟩ := split_of_width_le htext.symm (by omega)
  rw [hrest] at hbreak
  obtain ⟨after', hbreak', -⟩ := breakAt?_of_append hmark hbreak (by
    rw [width_append] at hle ⊢
    omega)
  rw [locate_width, hbreak']
  rfl

theorem locate_le {text mark other : Text} {start later place stop : Nat} (hmark : mark ≠ [])
    (hstart : locate text other start = some stop) (hle : start ≤ later)
    (h : locate text mark later = some place) :
    ∃ first, locate text mark start = some first ∧ first ≤ place := by
  obtain ⟨front, before, after, htext, rfl, -, -⟩ := locate_eq_some_iff.mp hstart
  obtain ⟨lead, gap, back, htext', rfl, rfl, -⟩ := locate_eq_some_iff.mp h
  obtain ⟨middle, rfl, hrest⟩ := split_of_width_le (htext.symm.trans htext') hle
  rw [htext, hrest, locate_width]
  obtain ⟨first, rest, hbreak, hfirst⟩ := breakAt?_le hmark (middle ++ gap) back
  refine ⟨width (front ++ first), ?_, ?_⟩
  · have hassoc : middle ++ (gap ++ mark ++ back) = middle ++ gap ++ mark ++ back := by simp
    rw [hassoc, hbreak]
    rfl
  · rw [List.append_assoc, width_append, width_append front]
    omega

theorem eq_of_cut {text : Text} {first last : Nat} {piece : Text}
    (h : cut text first last = .ok piece) :
    ∃ front back, text = front ++ (piece ++ back) ∧ width front = first ∧
      width (front ++ piece) = last := by
  unfold cut at h
  split at h
  · rename_i hslice
    cases h
    unfold slice? at hslice
    split at hslice
    · rename_i hle
      obtain ⟨rest, hdrop, htake⟩ := Option.bind_eq_some_iff.mp hslice
      obtain ⟨front, rfl, rfl⟩ := eq_of_dropBytes? hdrop
      obtain ⟨count, hcount, rfl⟩ := Option.map_eq_some_iff.mp htake
      obtain ⟨middle, back, rfl, hwidth, rfl⟩ := eq_of_charsFrom? hcount
      rw [Nat.zero_add, List.take_left]
      refine ⟨front, back, rfl, rfl, ?_⟩
      rw [width_append]
      omega
    · exact absurd hslice (by simp)
  · exact absurd h (by simp)

theorem cut_append {text : Text} {first last : Nat} {piece : Text}
    (h : cut text first last = .ok piece) (more : Text) :
    cut (text ++ more) first last = .ok piece := by
  obtain ⟨front, back, rfl, rfl, rfl⟩ := eq_of_cut h
  rw [List.append_assoc, List.append_assoc, cut_width]

theorem width_cut {text : Text} {first last : Nat} {piece : Text}
    (h : cut text first last = .ok piece) : first + width piece = last := by
  obtain ⟨front, back, -, rfl, rfl⟩ := eq_of_cut h
  exact (width_append front piece).symm

/-- The text between two marks that have been located one after the other can be cut out. -/
theorem cut_of_locate {text mark : Text} {start place : Nat}
    (h : locate text mark start = some place) : ∃ piece, cut text start place = .ok piece := by
  obtain ⟨front, before, after, rfl, rfl, rfl, -⟩ := locate_eq_some_iff.mp h
  exact ⟨before, by rw [List.append_assoc, cut_width]⟩

theorem exists_cut_to_end {text mark : Text} {start place : Nat}
    (h : locate text mark start = some place) :
    ∃ piece, cut text place (width text) = .ok piece := by
  obtain ⟨front, before, after, rfl, -, rfl, -⟩ := locate_eq_some_iff.mp h
  have hcut := cut_width (front ++ before) (mark ++ after) []
  rw [List.append_nil] at hcut
  exact ⟨mark ++ after, by simpa only [List.append_assoc] using hcut⟩

/-- An extraction fails for the want of a mark only. -/
theorem missing_of_extractBetween {text opening closing : Text} {start : Nat} {e : ScanError}
    (h : extractBetween text opening closing start = .error e) : ∃ mark, e = .missing mark := by
  unfold extractBetween at h
  split at h
  · exact ⟨opening, (Except.error.inj h).symm⟩
  · simp only at h
    split at h
    · exact ⟨closing, (Except.error.inj h).symm⟩
    · rename_i last hlast
      obtain ⟨inner, hinner⟩ := cut_of_locate hlast
      rw [hinner] at h
      cases h

theorem extractBetween_eq_ok_iff {text opening closing : Text} {start : Nat} {extract : Extract} :
    extractBetween text opening closing start = .ok extract ↔
      ∃ place last, locate text opening start = some place ∧
        locate text closing (place + width opening) = some last ∧
        cut text (place + width opening) last = .ok extract.inner ∧
        extract.start = place + width opening ∧ extract.after = last + width closing := by
  constructor
  · intro h
    unfold extractBetween at h
    split at h
    · cases h
    · rename_i place hplace
      simp only at h
      split at h
      · cases h
      · rename_i last hlast
        obtain ⟨inner, hinner⟩ := cut_of_locate hlast
        rw [hinner] at h
        cases h
        exact ⟨place, last, hplace, hlast, hinner, rfl, rfl⟩
  · obtain ⟨inner, first, after⟩ := extract
    rintro ⟨place, last, hplace, hlast, hinner, rfl, rfl⟩
    simp only [extractBetween, hplace, hlast, hinner]

theorem extractBetween_append {text opening closing : Text} {start : Nat} {extract : Extract}
    (hopening : opening ≠ []) (hclosing : closing ≠ [])
    (h : extractBetween text opening closing start = .ok extract) (more : Text) :
    extractBetween (text ++ more) opening closing start = .ok extract := by
  obtain ⟨place, last, hplace, hlast, hinner, hstart, hafter⟩ := extractBetween_eq_ok_iff.mp h
  exact extractBetween_eq_ok_iff.mpr ⟨place, last, locate_append hopening hplace more,
    locate_append hclosing hlast more, cut_append hinner more, hstart, hafter⟩

theorem extractBetween_width {opening closing gap inner : Text} (front rest : Text)
    (hopening : opening ≠ []) (hclosing : closing ≠ [])
    (hgap : Passes opening gap (opening ++ (inner ++ closing ++ rest)))
    (hinner : Passes closing inner (closing ++ rest)) :
    extractBetween (front ++ (gap ++ opening ++ (inner ++ closing ++ rest))) opening closing
        (width front) =
      .ok ⟨inner, width (front ++ gap ++ opening),
        width (front ++ gap ++ opening ++ inner ++ closing)⟩ := by
  have hopen : locate (front ++ (gap ++ opening ++ (inner ++ closing ++ rest))) opening
      (width front) = some (width (front ++ gap)) := locate_of_passes rfl hopening hgap
  have hpage : front ++ (gap ++ opening ++ (inner ++ closing ++ rest)) =
      (front ++ gap ++ opening) ++ (inner ++ (closing ++ rest)) := by simp
  have hclose : locate (front ++ (gap ++ opening ++ (inner ++ closing ++ rest))) closing
      (width (front ++ gap ++ opening)) = some (width (front ++ gap ++ opening ++ inner)) :=
    locate_of_passes (by rw [hpage, List.append_assoc inner]) hclosing hinner
  have hinner := cut_width (front ++ gap ++ opening) inner (closing ++ rest)
  rw [← hpage] at hinner
  rw [width_append] at hclose hinner
  exact extractBetween_eq_ok_iff.mpr ⟨_, _, hopen, hclose, hinner, width_append _ _,
    width_append _ _⟩

theorem extractBetween_bounds {text opening closing : Text} {start : Nat} {extract : Extract}
    (h : extractBetween text opening closing start = .ok extract) :
    ∃ place, locate text opening start = some place ∧ extract.start = place + width opening ∧
      extract.start ≤ extract.after ∧ extract.after ≤ width text := by
  obtain ⟨place, last, hplace, hlast, -, hstart, hafter⟩ := extractBetween_eq_ok_iff.mp h
  have hbounds := locate_bounds hlast
  rw [hstart, hafter]
  exact ⟨place, hplace, rfl, by omega, hbounds.2⟩

/-- Two different marks do not overlap when the first does not hold the head of the second. -/
theorem locate_disjoint {text mark other : Text} {start later place stop : Nat} {c : Char}
    (h : locate text mark start = some place) (h' : locate text other later = some stop)
    (hlt : place < stop) (hother : other.head? = some c) (hhead : c ∉ mark) :
    place + width mark ≤ stop := by
  obtain ⟨front, before, after, htext, -, rfl, -⟩ := locate_eq_some_iff.mp h
  obtain ⟨lead, gap, back, htext', -, rfl, -⟩ := locate_eq_some_iff.mp h'
  have hsplit : (front ++ before) ++ (mark ++ after) = (lead ++ gap) ++ (other ++ back) := by
    rw [List.append_assoc, List.append_assoc, ← List.append_assoc before, ← htext, htext',
      List.append_assoc gap]
  obtain ⟨middle, hlead, hmark⟩ := split_of_width_le hsplit (by omega)
  apply Nat.le_of_not_lt
  intro hlap
  rw [hlead, width_append _ middle] at hlap
  obtain ⟨rest, hrest, hback⟩ := split_of_width_le hmark.symm (by omega)
  obtain ⟨tail, rfl⟩ := List.head?_eq_some_iff.mp hother
  cases rest with
  | nil =>
    rw [hrest, List.append_nil] at hlap
    omega
  | cons d rest =>
    rw [List.cons_append, List.cons_append, List.cons.injEq] at hback
    apply hhead
    rw [hrest, hback.1]
    simp

theorem extractBetween_ok (opening closing : Text) (hopening : opening ≠ [])
    (hclosing : closing ≠ []) (front gap inner rest : Text) :
    ∃ extract, extractBetween (front ++ (gap ++ opening ++ (inner ++ closing ++ rest)))
      opening closing (width front) = .ok extract := by
  obtain ⟨first, back, hbreak, hle⟩ := breakAt?_le hopening gap (inner ++ closing ++ rest)
  have hsplit := eq_of_breakAt? hbreak
  have hwidth : width (first ++ opening) ≤ width (gap ++ opening) := by
    rw [width_append, width_append]
    omega
  obtain ⟨middle, hgap, hback⟩ := split_of_width_le hsplit.symm hwidth
  obtain ⟨last, after, hlast, -⟩ := breakAt?_le hclosing (middle ++ inner) rest
  have hassoc : back = middle ++ inner ++ closing ++ rest := by
    rw [hback]
    simp
  rw [← hassoc] at hlast
  have hopen : locate (front ++ (gap ++ opening ++ (inner ++ closing ++ rest))) opening
      (width front) = some (width (front ++ first)) := by
    rw [locate_width, hbreak]
    rfl
  have hclose : locate (front ++ (gap ++ opening ++ (inner ++ closing ++ rest))) closing
      (width (front ++ first) + width opening) =
        some (width (front ++ first ++ opening ++ last)) := by
    have hpage : front ++ (gap ++ opening ++ (inner ++ closing ++ rest)) =
        (front ++ first ++ opening) ++ back := by
      rw [hsplit]
      simp
    rw [hpage, ← width_append, locate_width, hlast]
    rfl
  obtain ⟨piece, hpiece⟩ := cut_of_locate hclose
  exact ⟨⟨piece, _, _⟩, extractBetween_eq_ok_iff.mpr ⟨_, _, hopen, hclose, hpiece, rfl, rfl⟩⟩

end Markup

end ClassSkeleton
