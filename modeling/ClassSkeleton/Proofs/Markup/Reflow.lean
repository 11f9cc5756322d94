import ClassSkeleton.Proofs.Markup.Plain
import Mathlib.Data.List.DropRight

/-!
Reflowed text. Each line of it is single-spaced and trimmed, no two neighbouring lines are empty
and no empty line stands at either end, so reflowing it once more changes nothing, and its lines
are found again in the text. Reflowing takes out blanks only: a mark without blanks stands in the
result exactly if it stands in the text before.
-/
namespace ClassSkeleton

namespace Text

/-- Only blanks are read away or put in by `collapse`, so nothing is left to collapse. -/
theorem collapseFrom_collapseFrom (afterBlank : Bool) (text : Text) :
    collapseFrom afterBlank (collapseFrom afterBlank text) = collapseFrom afterBlank text := by
  have hspace : isBlank ' ' = true := by decide
  induction text generalizing afterBlank with
  | nil => rfl
  | cons c rest ih =>
    rw [collapseFrom]
    by_cases hc : isBlank c = true
    · rw [if_pos hc]
      cases afterBlank with
      | true => exact ih true
      | false =>
        rw [if_neg (by simp), collapseFrom, if_pos hspace, if_neg (by simp), ih true]
    · rw [if_neg hc, collapseFrom, if_neg hc, ih false]

theorem trimStart_collapseFrom (afterBlank : Bool) (text : Text) :
    trimStart (collapseFrom afterBlank text) = collapseFrom true text := by
  have hspace : isBlank ' ' = true := by decide
  induction text generalizing afterBlank with
  | nil => rfl
  | cons c rest ih =>
    rw [collapseFrom, collapseFrom]
    by_cases hc : isBlank c = true
    · rw [if_pos hc, if_pos hc]
      cases afterBlank with
      | true => exact ih true
      | false =>
        rw [if_neg (by simp), trimStart, List.dropWhile_cons, if_pos hspace]
        exact ih true
    · rw [if_neg hc, if_neg hc]
      exact trimStart_cons _ (by simpa using hc)

theorem length_collapseFrom_le (afterBlank : Bool) (text : Text) :
    (collapseFrom afterBlank text).length ≤ text.length := by
  induction text generalizing afterBlank with
  | nil => exact Nat.le_refl 0
  | cons c rest ih =>
    have htrue := ih true
    have hfalse := ih false
    rw [collapseFrom]
    split
    · split
      · simp only [List.length_cons]
        omega
      · simp only [List.length_cons]
        omega
    · simp only [List.length_cons]
      omega

theorem collapseFrom_prefix {afterBlank : Bool} {front text : Text} (h : front <+: text)
    (htext : collapseFrom afterBlank text = text) : collapseFrom afterBlank front = front := by
  induction front generalizing afterBlank text with
  | nil => rfl
  | cons c front ih =>
    obtain ⟨back, rfl⟩ := h
    rw [List.cons_append, collapseFrom] at htext
    rw [collapseFrom]
    by_cases hc : isBlank c = true
    · rw [if_pos hc] at htext ⊢
      cases afterBlank with
      | true =>
        -- a collapsed text has no blank here, for what is left of it would be longer than itself
        have hlength := congrArg List.length htext
        have hle := length_collapseFrom_le true (front ++ back)
        simp only [if_true, List.length_cons] at hlength
        omega
      | false =>
        rw [if_neg (by simp), List.cons.injEq] at htext ⊢
        exact ⟨htext.1, ih (List.prefix_append front back) htext.2⟩
    · rw [if_neg hc, List.cons.injEq] at htext ⊢
      exact ⟨rfl, ih (List.prefix_append front back) htext.2⟩

/-- A line as it stands in reflowed text. -/
def tidy (line : Text) : Text := trim (collapse line)

theorem tidy_eq (line : Text) : tidy line = trimEnd (collapseFrom true line) := by
  rw [tidy, trim, collapse, trimStart_collapseFrom]

theorem tidy_tidy (line : Text) : tidy (tidy line) = tidy line := by
  have hcollapsed : collapseFrom true (tidy line) = tidy line := by
    rw [tidy_eq]
    exact collapseFrom_prefix (trimEnd_isPrefix _) (collapseFrom_collapseFrom true line)
  have htrimmed : trimEnd (tidy line) = tidy line := by
    rw [tidy_eq, trimEnd, trimEnd, List.reverse_reverse, List.dropWhile_idempotent]
  rw [tidy_eq (tidy line), hcollapsed, htrimmed]

theorem trimEnd_blanks {blanks : Text} (h : ∀ c ∈ blanks, isBlank c = true) :
    trimEnd blanks = [] := by
  rw [trimEnd, List.dropWhile_eq_nil_iff.mpr fun c hc => h c (List.mem_reverse.mp hc)]
  rfl

theorem trim_padded {before after : Text} (hbefore : ∀ c ∈ before, isBlank c = true)
    (hafter : ∀ c ∈ after, isBlank c = true) (text : Text) :
    trim (before ++ (text ++ after)) = trim text := by
  rw [trim, trimStart, List.dropWhile_append_of_pos hbefore, List.dropWhile_append]
  split
  · rename_i hnil
    rw [List.isEmpty_iff] at hnil
    rw [trim, trimStart, hnil, List.dropWhile_eq_nil_iff.mpr hafter]
  · rw [trimEnd_append, if_pos (trimEnd_blanks hafter)]
    rfl

theorem collapseFrom_blanks {blanks : Text} (h : ∀ c ∈ blanks, isBlank c = true) (rest : Text) :
    collapseFrom true (blanks ++ rest) = collapseFrom true rest := by
  induction blanks with
  | nil => rfl
  | cons c blanks ih =>
    obtain ⟨hc, hblanks⟩ := List.forall_mem_cons.mp h
    rw [List.cons_append, collapseFrom, if_pos hc, if_pos rfl, ih hblanks]

theorem collapseFrom_append_blanks (afterBlank : Bool) (text : Text) {after : Text}
    (h : ∀ c ∈ after, isBlank c = true) :
    ∃ tail, (∀ c ∈ tail, isBlank c = true) ∧
      collapseFrom afterBlank (text ++ after) = collapseFrom afterBlank text ++ tail := by
  induction text generalizing afterBlank with
  | nil =>
    refine ⟨collapseFrom afterBlank after, fun c hc => ?_, rfl⟩
    rcases mem_collapseFrom hc with rfl | hc
    · decide
    · exact h c hc
  | cons c text ih =>
    rw [List.cons_append, collapseFrom, collapseFrom]
    split
    · obtain ⟨tail, hblank, htail⟩ := ih true
      refine ⟨tail, hblank, ?_⟩
      split <;> simp [htail]
    · obtain ⟨tail, hblank, htail⟩ := ih false
      exact ⟨tail, hblank, by simp [htail]⟩

theorem tidy_padded {before after : Text} (hbefore : ∀ c ∈ before, isBlank c = true)
    (hafter : ∀ c ∈ after, isBlank c = true) (text : Text) :
    tidy (before ++ (text ++ after)) = tidy text := by
  obtain ⟨tail, hblank, htail⟩ := collapseFrom_append_blanks true text hafter
  rw [tidy_eq, tidy_eq, collapseFrom_blanks hbefore, htail, trimEnd_append,
    if_pos (trimEnd_blanks hblank)]

theorem filter_collapseFrom (afterBlank : Bool) (text : Text) :
    ((collapseFrom afterBlank text).filter fun c => !isBlank c) =
      text.filter fun c => !isBlank c := by
  have hspace : isBlank ' ' = true := by decide
  induction text generalizing afterBlank with
  | nil => rfl
  | cons c rest ih =>
    rw [collapseFrom]
    split
    · rename_i hc
      split <;> simp [hc, hspace, ih]
    · rename_i hc
      simp [hc, ih]

theorem not_mem_tidy {c : Char} (hc : isBlank c = true) (hspace : c ≠ ' ') (line : Text) :
    c ∉ tidy line := by
  intro hmem
  have hcollapsed : c ∈ collapseFrom false line := mem_of_mem_trim hmem
  clear hmem
  generalize false = afterBlank at hcollapsed
  induction line generalizing afterBlank with
  | nil => exact absurd hcollapsed (by simp [collapseFrom])
  | cons d rest ih =>
    rw [collapseFrom] at hcollapsed
    split at hcollapsed
    · split at hcollapsed
      · exact ih true hcollapsed
      · rcases List.mem_cons.mp hcollapsed with h | h
        · exact hspace h
        · exact ih true h
    · rename_i hd
      rcases List.mem_cons.mp hcollapsed with rfl | h
      · exact hd hc
      · exact ih false h

theorem dropEndMark?_eq_none {c : Char} {line : Text} (h : c ∉ line) :
    dropEndMark? [c] line = none := by
  rw [dropEndMark?, if_neg]
  rw [List.isSuffixOf_iff_suffix]
  intro hsuffix
  exact h (hsuffix.subset List.mem_cons_self)

theorem lines_join {pieces : List Text} (hpieces : ∀ piece ∈ pieces, '\n' ∉ piece ∧ '\r' ∉ piece)
    (hlast : pieces.getLast? ≠ some []) : lines (join ['\n'] pieces) = pieces := by
  rcases List.eq_nil_or_concat' pieces with rfl | ⟨front, last, rfl⟩
  · rfl
  · have hne : last ≠ [] := by simpa using hlast
    have hfront : ∀ line ∈ front, (dropEndMark? ['\r'] line).getD line = line := by
      intro line hline
      rw [dropEndMark?_eq_none (hpieces line (List.mem_append_left _ hline)).2, Option.getD_none]
    rw [lines, splitOn_join (by simp) fun piece hpiece => (hpieces piece hpiece).1]
    simp only [List.dropLast_concat, List.getLast?_concat]
    rw [List.map_congr_left hfront, List.map_id', Option.filter_some_pos (by simpa using hne)]
    rfl

/-- A text without blanks stands in a text exactly if it stands in it without the blanks at its
front. -/
theorem infix_dropWhile_iff {mark text : Text} (hmark : mark ≠ [])
    (hblank : ∀ c ∈ mark, isBlank c = false) :
    mark <:+: text.dropWhile isBlank ↔ mark <:+: text := by
  induction text with
  | nil => rfl
  | cons c rest ih =>
    rw [List.dropWhile_cons]
    split
    · rename_i hc
      rw [ih, List.infix_cons_iff]
      constructor
      · intro h
        exact .inr h
      · rintro (h | h)
        · obtain ⟨d, tail, rfl⟩ := List.exists_cons_of_ne_nil hmark
          obtain ⟨rfl, -⟩ := List.cons_prefix_cons.mp h
          rw [hblank d List.mem_cons_self] at hc
          exact absurd hc (by simp)
        · exact h
    · rfl

theorem infix_trim_iff {mark text : Text} (hmark : mark ≠ [])
    (hblank : ∀ c ∈ mark, isBlank c = false) : mark <:+: trim text ↔ mark <:+: text := by
  have hstart : mark <:+: trimStart text ↔ mark <:+: text := infix_dropWhile_iff hmark hblank
  have hend : mark.reverse <:+: (trimStart text).reverse.dropWhile isBlank ↔
      mark.reverse <:+: (trimStart text).reverse :=
    infix_dropWhile_iff (by simpa using hmark) (by simpa using hblank)
  rw [List.reverse_infix, hstart] at hend
  rw [trim, trimEnd, ← hend, ← List.reverse_infix, List.reverse_reverse]

theorem prefix_collapse_iff {mark text : Text} (hblank : ∀ c ∈ mark, isBlank c = false) :
    mark <+: collapseFrom false text ↔ mark <+: text := by
  induction mark generalizing text with
  | nil => exact ⟨fun _ => List.nil_prefix, fun _ => List.nil_prefix⟩
  | cons d mark ih =>
    have hd := hblank d List.mem_cons_self
    cases text with
    | nil => rfl
    | cons c rest =>
      rw [collapseFrom]
      split
      · rename_i hc
        rw [if_neg (by simp), List.cons_prefix_cons, List.cons_prefix_cons]
        constructor
        · rintro ⟨rfl, -⟩
          exact absurd hd (by decide)
        · rintro ⟨rfl, -⟩
          rw [hd] at hc
          exact absurd hc (by simp)
      · rw [List.cons_prefix_cons, List.cons_prefix_cons,
          ih fun e he => hblank e (List.mem_cons_of_mem d he)]

theorem infix_collapseFrom_iff {mark : Text} (hmark : mark ≠ [])
    (hblank : ∀ c ∈ mark, isBlank c = false) (afterBlank : Bool) (text : Text) :
    mark <:+: collapseFrom afterBlank text ↔ mark <:+: text := by
  -- a blank in front of a text does not open the mark
  have hskip : ∀ c, isBlank c = true → ∀ other, mark <:+: c :: other ↔ mark <:+: other := by
    intro c hc other
    have h : mark <:+: (c :: other).dropWhile isBlank ↔ mark <:+: c :: other :=
      infix_dropWhile_iff hmark hblank
    rw [List.dropWhile_cons, if_pos hc, infix_dropWhile_iff hmark hblank] at h
    exact h.symm
  induction text generalizing afterBlank with
  | nil => rfl
  | cons c rest ih =>
    rw [collapseFrom]
    split
    · rename_i hc
      rw [hskip c hc]
      split
      · exact ih true
      · rw [hskip ' ' (by decide)]
        exact ih true
    · rename_i hc
      have hprefix : mark <+: collapseFrom false (c :: rest) ↔ mark <+: c :: rest :=
        prefix_collapse_iff hblank
      rw [collapseFrom, if_neg hc] at hprefix
      rw [List.infix_cons_iff, List.infix_cons_iff]
      exact or_congr hprefix (ih false)

theorem infix_tidy_iff {mark : Text} (hmark : mark ≠ []) (hblank : ∀ c ∈ mark, isBlank c = false)
    (line : Text) : mark <:+: tidy line ↔ mark <:+: line := by
  rw [tidy, infix_trim_iff hmark hblank, collapse, infix_collapseFrom_iff hmark hblank]

/-- A mark does not reach across the place at which two texts are joined by a character that is
none of its own. -/
theorem infix_append_cons_iff {mark : Text} {c : Char} (hmark : mark ≠ []) (hc : c ∉ mark)
    (front rest : Text) : mark <:+: front ++ c :: rest ↔ mark <:+: front ∨ mark <:+: rest := by
  constructor
  · rintro ⟨before, after, h⟩
    by_cases hfront : mark <:+: front
    · exact .inl hfront
    · right
      have hpass : Passes mark (front ++ [c]) rest := passes_concat rest hmark hfront hc
      have hsome := breakAt?_of_passes hpass
      have hocc : breakAt? mark (front ++ [c] ++ rest) ≠ none := by
        rw [ne_eq, breakAt?_eq_none_iff hmark, not_not]
        exact ⟨before, after, by simpa using h⟩
      by_contra hrest
      rw [(breakAt?_eq_none_iff hmark rest).mpr hrest] at hsome
      exact hocc hsome
  · rintro (h | h)
    · exact h.trans (List.prefix_append front (c :: rest)).isInfix
    · exact h.trans ((List.suffix_cons c rest).trans (List.suffix_append front _)).isInfix

theorem infix_join_iff {mark : Text} {c : Char} (hmark : mark ≠ []) (hc : c ∉ mark)
    (pieces : List Text) : mark <:+: join [c] pieces ↔ ∃ piece ∈ pieces, mark <:+: piece := by
  induction pieces with
  | nil => simpa [join, List.intercalate] using hmark
  | cons piece pieces ih =>
    by_cases hpieces : pieces = []
    · subst hpieces
      simp [join, List.intercalate]
    · rw [join_cons _ _ hpieces, List.append_assoc, List.singleton_append,
        infix_append_cons_iff hmark hc, ih, List.exists_mem_cons_iff]

/-- A mark without line ends stands in a text exactly if it stands in one of its lines. -/
theorem infix_lines_iff {mark : Text} (hmark : mark ≠ []) (hfeed : '\n' ∉ mark)
    (hreturn : '\r' ∉ mark) (text : Text) :
    (∃ line ∈ lines text, mark <:+: line) ↔ mark <:+: text := by
  have hend : ∀ line, mark <:+: (dropEndMark? ['\r'] line).getD line ↔ mark <:+: line := by
    intro line
    cases h : dropEndMark? ['\r'] line with
    | none => rfl
    | some front =>
      have hline : line = front ++ ['\r'] := by
        rw [dropEndMark?] at h
        split at h
        · rename_i hsuffix
          obtain ⟨start, rfl⟩ := List.isSuffixOf_iff_suffix.mp hsuffix
          simpa using h
        · exact absurd h (by simp)
      rw [hline, infix_append_cons_iff hmark hreturn, Option.getD_some]
      simpa using fun hnil => absurd hnil hmark
  rcases List.eq_nil_or_concat' (splitOn ['\n'] text) with hnil | ⟨front, last, hsplit⟩
  · exact absurd hnil (splitFrom_ne_nil _ _ _)
  have htext : join ['\n'] (splitOn ['\n'] text) = text := join_splitOn (by simp) text
  rw [← htext, infix_join_iff hmark hfeed, htext, lines, hsplit]
  simp only [List.dropLast_concat, List.getLast?_concat]
  constructor
  · rintro ⟨line, hline, hocc⟩
    rcases List.mem_append.mp hline with hline | hline
    · obtain ⟨piece, hpiece, rfl⟩ := List.mem_map.mp hline
      exact ⟨piece, List.mem_append_left _ hpiece, (hend piece).mp hocc⟩
    · obtain ⟨hlast, -⟩ := Option.filter_eq_some_iff.mp (Option.mem_toList.mp hline)
      obtain rfl := Option.some.inj hlast
      exact ⟨last, List.mem_concat_self, hocc⟩
  · rintro ⟨piece, hpiece, hocc⟩
    rcases List.mem_append.mp hpiece with hpiece | hpiece
    · exact ⟨_, List.mem_append_left _ (List.mem_map_of_mem hpiece), (hend piece).mpr hocc⟩
    · obtain rfl := List.mem_singleton.mp hpiece
      have hne : piece ≠ [] := by
        rintro rfl
        exact hmark (List.infix_nil.mp hocc)
      refine ⟨piece, List.mem_append_right _ ?_, hocc⟩
      simpa using hne

end Text

namespace Markup

open Text

theorem mem_squeezeFrom {started gap : Bool} {lines : List Text} {line : Text} (hne : line ≠ []) :
    line ∈ squeezeFrom started gap lines ↔ line ∈ lines := by
  induction lines generalizing started gap with
  | nil => rfl
  | cons first rest ih =>
    rw [squeezeFrom]
    split
    · rename_i hfirst
      rw [List.isEmpty_iff] at hfirst
      subst hfirst
      rw [ih, List.mem_cons]
      simp [hne]
    · split
      · rw [List.mem_cons, List.mem_cons, List.mem_cons, ih]
        simp [hne]
      · rw [List.mem_cons, List.mem_cons, ih]

theorem getLast?_squeezeFrom (started gap : Bool) (lines : List Text) :
    (squeezeFrom started gap lines).getLast? ≠ some [] := by
  induction lines generalizing started gap with
  | nil => simp [squeezeFrom]
  | cons first rest ih =>
    have hcons : first ≠ [] → (first :: squeezeFrom true false rest).getLast? ≠ some [] := by
      intro hfirst
      rw [List.getLast?_cons]
      cases hlast : (squeezeFrom true false rest).getLast? with
      | none => simpa using hfirst
      | some last =>
        have h := ih true false
        rw [hlast] at h
        simpa using h
    rw [squeezeFrom]
    split
    · exact ih started started
    · rename_i hfirst
      rw [List.isEmpty_iff] at hfirst
      split
      · rw [List.getLast?_cons_cons]
        exact hcons hfirst
      · exact hcons hfirst

/-- The gaps that were kept are kept again: behind a kept line, one empty line waits in each. -/
theorem squeezeFrom_squeezeFrom {started gap : Bool} (h : gap = true → started = true)
    (lines : List Text) :
    squeezeFrom started false (squeezeFrom started gap lines) = squeezeFrom started gap lines := by
  induction lines generalizing started gap with
  | nil => rfl
  | cons first rest ih =>
    have hkept : squeezeFrom true false (squeezeFrom true false rest) =
        squeezeFrom true false rest :=
      ih (by simp)
    rw [squeezeFrom]
    split
    · exact ih fun hstarted => hstarted
    · rename_i hfirst
      cases gap with
      | true =>
        obtain rfl : started = true := h rfl
        simp [squeezeFrom, hfirst, hkept]
      | false => simp [squeezeFrom, hfirst, hkept]

theorem squeeze_squeeze (lines : List Text) : squeeze (squeeze lines) = squeeze lines :=
  squeezeFrom_squeezeFrom (by simp) lines

/-- The lines of a text, tidied and put together again. -/
def settle (text : Text) : Text := join ['\n'] (squeeze ((lines text).map tidy))

theorem reflow_eq (html : Text) : reflow html = settle (decodeEntities (stripTags html)) := rfl

/-- Text in the form that reflowing gives it. -/
def IsReflowed (text : Text) : Prop := settle text = text

instance (text : Text) : Decidable (IsReflowed text) :=
  inferInstanceAs (Decidable (settle text = text))

theorem lines_settle (text : Text) :
    lines (settle text) = squeeze ((lines text).map tidy) := by
  apply lines_join
  · intro line hline
    by_cases hne : line = []
    · subst hne
      simp
    · obtain ⟨piece, -, rfl⟩ := List.mem_map.mp ((mem_squeezeFrom hne).mp hline)
      exact ⟨not_mem_tidy (by decide) (by decide) piece, not_mem_tidy (by decide) (by decide) piece⟩
  · exact getLast?_squeezeFrom false false _

theorem isReflowed_settle (text : Text) : IsReflowed (settle text) := by
  have htidy : ∀ line ∈ squeeze ((lines text).map tidy), tidy line = line := by
    intro line hline
    by_cases hne : line = []
    · subst hne
      rfl
    · obtain ⟨piece, -, rfl⟩ := List.mem_map.mp ((mem_squeezeFrom hne).mp hline)
      exact tidy_tidy piece
  rw [IsReflowed, settle, lines_settle, List.map_congr_left htidy, List.map_id', squeeze_squeeze,
    ← settle]

/-- Reflowing brings every text into the same form. -/
theorem isReflowed_reflow (html : Text) : IsReflowed (reflow html) := isReflowed_settle _

theorem IsReflowed.eq_of_lines {text other : Text} (htext : IsReflowed text)
    (hother : IsReflowed other) (h : lines text = lines other) : text = other := by
  rw [← htext, ← hother, settle, settle, h]

/-- Settling neither brings the characters of a mark together nor parts them. -/
theorem infix_settle_iff {mark : Text} (hmark : mark ≠ [])
    (hblank : ∀ c ∈ mark, isBlank c = false) (text : Text) :
    mark <:+: settle text ↔ mark <:+: text := by
  have hnot : ∀ c, isBlank c = true → c ∉ mark := by
    intro c hc hmem
    rw [hblank c hmem] at hc
    exact absurd hc (by simp)
  rw [settle, infix_join_iff hmark (hnot '\n' (by decide)),
    ← infix_lines_iff hmark (hnot '\n' (by decide)) (hnot '\r' (by decide)) text]
  constructor
  · rintro ⟨line, hline, hocc⟩
    have hne : line ≠ [] := by
      rintro rfl
      exact hmark (List.infix_nil.mp hocc)
    obtain ⟨piece, hpiece, rfl⟩ := List.mem_map.mp ((mem_squeezeFrom hne).mp hline)
    exact ⟨piece, hpiece, (infix_tidy_iff hmark hblank piece).mp hocc⟩
  · rintro ⟨line, hline, hocc⟩
    have htidy : mark <:+: tidy line := (infix_tidy_iff hmark hblank line).mpr hocc
    have hne : tidy line ≠ [] := by
      intro hnil
      rw [hnil] at htidy
      exact hmark (List.infix_nil.mp htidy)
    exact ⟨tidy line, (mem_squeezeFrom hne).mpr (List.mem_map_of_mem hline), htidy⟩

end Markup

end ClassSkeleton
