import ClassSkeleton.Proofs.Markup.Reflow

/-!
How text is spaced once it has been tidied. A line has single spaces between its words and no
blank at its ends; documentation consists of such lines, with single empty lines between some of
them. Both hold of the texts that `tidy` and `reflow` return, whatever they are given.
-/
namespace ClassSkeleton

namespace Text

/-- A line with single spaces between its words and none at its ends. -/
structure IsSpacedLine (line : Text) : Prop where
  spaces : ∀ c ∈ line, isBlank c = true → c = ' '
  single : ¬ [' ', ' '] <:+: line
  trimmed : trim line = line

/-- Lines that are spaced, with at most one empty line between two others and none before the
first or behind the last of them. -/
structure IsLaidOut (text : Text) : Prop where
  lines : ∀ line ∈ splitOn ['\n'] text, IsSpacedLine line
  gaps : ¬ [[], []] <:+: splitOn ['\n'] text
  opens : text ≠ [] → (splitOn ['\n'] text).head? ≠ some []
  closes : text ≠ [] → (splitOn ['\n'] text).getLast? ≠ some []

theorem head?_collapseFrom (text : Text) : (collapseFrom true text).head? ≠ some ' ' := by
  induction text with
  | nil => simp [collapseFrom]
  | cons c rest ih =>
    rw [collapseFrom]
    split
    · exact ih
    · rename_i hc
      rw [List.head?_cons]
      rintro ⟨rfl⟩
      exact hc (by decide)

theorem not_infix_collapseFrom (afterBlank : Bool) (text : Text) :
    ¬ [' ', ' '] <:+: collapseFrom afterBlank text := by
  induction text generalizing afterBlank with
  | nil => simp [collapseFrom]
  | cons c rest ih =>
    rw [collapseFrom]
    split
    · split
      · exact ih true
      · rw [List.infix_cons_iff, List.cons_prefix_cons]
        rintro (⟨-, hnext⟩ | hlater)
        · obtain ⟨tail, htail⟩ := hnext
          exact head?_collapseFrom rest (by rw [← htail]; rfl)
        · exact ih true hlater
    · rename_i hc
      rw [List.infix_cons_iff, List.cons_prefix_cons]
      rintro (⟨rfl, -⟩ | hlater)
      · exact hc (by decide)
      · exact ih false hlater

theorem trim_trim (text : Text) : trim (trim text) = trim text := by
  have hend : trimEnd (trim text) = trim text := by
    rw [trim, trimEnd, trimEnd, List.reverse_reverse, List.dropWhile_idempotent]
  have hstart : trimStart (trim text) = trim text := by
    cases htrim : trim text with
    | nil => rfl
    | cons c rest =>
      obtain ⟨tail, htail⟩ : trim text <+: trimStart text := trimEnd_isPrefix _
      rw [htrim, List.cons_append] at htail
      have hhead := List.head?_dropWhile_not isBlank text
      rw [← trimStart, ← htail] at hhead
      exact trimStart_cons rest (by simpa using hhead)
  rw [trim, hstart, hend]

theorem isSpacedLine_nil : IsSpacedLine [] := ⟨by simp, by simp, rfl⟩

theorem isSpacedLine_tidy (line : Text) : IsSpacedLine (tidy line) where
  spaces c hc hblank := by
    by_contra hspace
    exact not_mem_tidy hblank hspace line hc
  single hinside := by
    rw [tidy_eq] at hinside
    exact not_infix_collapseFrom true line (hinside.trans (trimEnd_isPrefix _).isInfix)
  trimmed := trim_trim _

end Text

namespace Markup

open Text

/-- An empty line is kept only in front of another. -/
theorem not_infix_squeezeFrom (started gap : Bool) (lines : List Text) :
    ¬ [[], []] <:+: squeezeFrom started gap lines := by
  induction lines generalizing started gap with
  | nil => simp [squeezeFrom]
  | cons line rest ih =>
    have hkept : line ≠ [] → ¬ [[], []] <:+: line :: squeezeFrom true false rest := by
      intro hline
      rw [List.infix_cons_iff, List.cons_prefix_cons]
      rintro (⟨hnil, -⟩ | hlater)
      · exact hline hnil.symm
      · exact ih true false hlater
    rw [squeezeFrom]
    split
    · exact ih started started
    · rename_i hline
      rw [List.isEmpty_iff] at hline
      split
      · rw [List.infix_cons_iff, List.cons_prefix_cons, List.cons_prefix_cons]
        rintro (⟨-, hnil, -⟩ | hlater)
        · exact hline hnil.symm
        · exact hkept hline hlater
      · exact hkept hline

theorem head?_squeeze (lines : List Text) : (squeeze lines).head? ≠ some [] := by
  rw [squeeze]
  induction lines with
  | nil => simp [squeezeFrom]
  | cons line rest ih =>
    rw [squeezeFrom]
    split
    · exact ih
    · rename_i hline
      simpa [List.isEmpty_iff] using hline

theorem isLaidOut_nil : IsLaidOut [] := by
  have hsplit : splitOn ['\n'] [] = [[]] := rfl
  refine ⟨?_, ?_, fun h => absurd rfl h, fun h => absurd rfl h⟩
  · rw [hsplit]
    intro line hline
    obtain rfl := List.mem_singleton.mp hline
    exact isSpacedLine_nil
  · rw [hsplit]
    decide

theorem isLaidOut_settle (text : Text) : IsLaidOut (settle text) := by
  rw [settle]
  by_cases hempty : squeeze ((Text.lines text).map tidy) = []
  · rw [hempty]
    exact isLaidOut_nil
  have hspaced : ∀ line ∈ squeeze ((Text.lines text).map tidy), IsSpacedLine line := by
    intro line hline
    by_cases hne : line = []
    · rw [hne]
      exact isSpacedLine_nil
    · obtain ⟨piece, -, rfl⟩ := List.mem_map.mp ((mem_squeezeFrom hne).mp hline)
      exact isSpacedLine_tidy piece
  have hsplit : splitOn ['\n'] (join ['\n'] (squeeze ((Text.lines text).map tidy))) =
      squeeze ((Text.lines text).map tidy) := by
    refine splitOn_join hempty fun line hline hfeed => ?_
    exact absurd ((hspaced line hline).spaces '\n' hfeed (by decide)) (by decide)
  constructor
  · rwa [hsplit]
  · rw [hsplit]
    exact not_infix_squeezeFrom false false _
  · rw [hsplit]
    exact fun _ => head?_squeeze _
  · rw [hsplit]
    exact fun _ => getLast?_squeezeFrom false false _

theorem isLaidOut_reflow (html : Text) : IsLaidOut (reflow html) := isLaidOut_settle _

end Markup

end ClassSkeleton
