import ClassSkeleton.Proofs.Markup.Reflow
import Mathlib.Data.List.SplitBy

/-!
Documentation word by word. A text is a row of words with blanks between them, and reflowing it
keeps every word where it is. Of the blanks between two words only one thing is kept: whether they
stand in one line, in two neighbouring lines, or have an empty line between them.
-/
namespace ClassSkeleton

namespace Text

/-- The longest stretches of a text that are blank or have no blank in them. -/
def runs (text : Text) : List Text := text.splitBy fun c d => isBlank c == isBlank d

/-- What stands between blanks. -/
def words (text : Text) : List Text := (runs text).filter fun run => !run.any isBlank

structure IsWord (word : Text) : Prop where
  nonempty : word ≠ []
  plain : ∀ c ∈ word, isBlank c = false

structure IsGap (gap : Text) : Prop where
  nonempty : gap ≠ []
  blank : ∀ c ∈ gap, isBlank c = true

/-- A text that begins with a word and goes on with gaps and words. -/
inductive IsProse : Text → Prop
  | last {word after : Text} (hword : IsWord word) (hafter : ∀ c ∈ after, isBlank c = true) :
    IsProse (word ++ after)
  | more {word gap rest : Text} (hword : IsWord word) (hgap : IsGap gap) (hrest : IsProse rest) :
    IsProse (word ++ (gap ++ rest))

variable {word gap rest text : Text}

theorem IsWord.head (h : IsWord word) : ∃ c tail, word = c :: tail ∧ isBlank c = false := by
  obtain ⟨c, tail, rfl⟩ := List.exists_cons_of_ne_nil h.nonempty
  exact ⟨c, tail, rfl, h.plain c List.mem_cons_self⟩

theorem IsWord.last (h : IsWord word) : ∃ front c, word = front ++ [c] ∧ isBlank c = false := by
  obtain ⟨front, c, rfl⟩ := (List.eq_nil_or_concat' word).resolve_left h.nonempty
  exact ⟨front, c, rfl, h.plain c (by simp)⟩

theorem IsWord.any (h : IsWord word) : word.any isBlank = false := by
  simpa using h.plain

theorem IsGap.any (h : IsGap gap) : gap.any isBlank = true := by
  obtain ⟨c, hc⟩ := List.exists_mem_of_ne_nil gap h.nonempty
  exact List.any_eq_true.mpr ⟨c, hc, h.blank c hc⟩

theorem IsProse.head (h : IsProse text) : ∃ c tail, text = c :: tail ∧ isBlank c = false := by
  cases h with
  | last hword hafter =>
    obtain ⟨c, tail, rfl, hc⟩ := hword.head
    exact ⟨c, tail ++ _, rfl, hc⟩
  | more hword hgap hrest =>
    obtain ⟨c, tail, rfl, hc⟩ := hword.head
    exact ⟨c, tail ++ _, rfl, hc⟩

theorem exists_word {c : Char} (hc : isBlank c = false) (tail : Text) :
    ∃ word behind, c :: tail = word ++ behind ∧ IsWord word ∧
      ∀ d ∈ behind.head?, isBlank d = true := by
  refine ⟨(c :: tail).takeWhile fun d => !isBlank d, (c :: tail).dropWhile fun d => !isBlank d,
    List.takeWhile_append_dropWhile.symm, ⟨by simp [hc], fun d hd => ?_⟩, fun d hd => ?_⟩
  · simpa using List.mem_takeWhile_imp hd
  · have hfirst := List.head?_dropWhile_not (fun d => !isBlank d) (c :: tail)
    rw [hd] at hfirst
    simpa using hfirst

theorem exists_blanks (text : Text) :
    ∃ blanks rest, text = blanks ++ rest ∧ (∀ c ∈ blanks, isBlank c = true) ∧
      ∀ c ∈ rest.head?, isBlank c = false := by
  refine ⟨text.takeWhile isBlank, text.dropWhile isBlank, List.takeWhile_append_dropWhile.symm,
    fun c hc => List.mem_takeWhile_imp hc, fun c hc => ?_⟩
  have hfirst := List.head?_dropWhile_not isBlank text
  rw [hc] at hfirst
  simpa using hfirst

theorem isProse_of_head {c : Char} (hc : isBlank c = false) (tail : Text) :
    IsProse (c :: tail) := by
  induction hn : tail.length using Nat.strong_induction_on generalizing c tail with
  | _ n ih =>
    obtain ⟨word, behind, hsplit, hword, hbehind⟩ := exists_word hc tail
    obtain ⟨blanks, rest, rfl, hblanks, hrest⟩ := exists_blanks behind
    rw [hsplit]
    cases rest with
    | nil =>
      rw [List.append_nil]
      exact .last hword hblanks
    | cons d rest =>
      have hd := hrest d rfl
      have hne : blanks ≠ [] := by
        rintro rfl
        rw [hbehind d rfl] at hd
        cases hd
      refine .more hword ⟨hne, hblanks⟩ (ih rest.length ?_ hd rest rfl)
      have hlength := congrArg List.length hsplit
      have hpos := List.length_pos_iff.mpr hne
      simp only [List.length_append, List.length_cons] at hlength
      omega

theorem runs_word (h : IsWord word) : runs word = [word] := by
  refine List.splitBy_of_isChain h.nonempty (List.Pairwise.isChain ?_)
  refine List.pairwise_of_forall_mem_list fun c hc d hd => ?_
  rw [h.plain c hc, h.plain d hd]
  rfl

theorem runs_gap (h : IsGap gap) : runs gap = [gap] := by
  refine List.splitBy_of_isChain h.nonempty (List.Pairwise.isChain ?_)
  refine List.pairwise_of_forall_mem_list fun c hc d hd => ?_
  rw [h.blank c hc, h.blank d hd]
  rfl

theorem runs_word_append (hword : IsWord word) (hrest : ∀ c ∈ rest.head?, isBlank c = true) :
    runs (word ++ rest) = word :: runs rest := by
  rw [runs, List.splitBy_append, ← runs, runs_word hword]
  · rfl
  · intro c hc d hd
    rw [hword.plain c (List.mem_of_getLast? hc), hrest d hd]
    rfl

theorem runs_gap_append (hgap : IsGap gap) (hrest : ∀ c ∈ rest.head?, isBlank c = false) :
    runs (gap ++ rest) = gap :: runs rest := by
  rw [runs, List.splitBy_append, ← runs, runs_gap hgap]
  · rfl
  · intro c hc d hd
    rw [hgap.blank c (List.mem_of_getLast? hc), hrest d hd]
    rfl

theorem runs_more (hword : IsWord word) (hgap : IsGap gap) {c : Char} (hc : isBlank c = false)
    (tail : Text) : runs (word ++ (gap ++ c :: tail)) = word :: gap :: runs (c :: tail) := by
  obtain ⟨d, others, rfl⟩ := List.exists_cons_of_ne_nil hgap.nonempty
  have hd := hgap.blank d List.mem_cons_self
  rw [runs_word_append hword (by simpa using hd), runs_gap_append hgap (by simpa using hc)]

theorem words_blanks {blanks : Text} (h : ∀ c ∈ blanks, isBlank c = true) : words blanks = [] := by
  by_cases hne : blanks = []
  · rw [hne]
    rfl
  · have hgap : IsGap blanks := ⟨hne, h⟩
    rw [words, runs_gap hgap, List.filter_singleton, hgap.any]
    rfl

theorem words_word_append (hword : IsWord word) (hrest : ∀ c ∈ rest.head?, isBlank c = true) :
    words (word ++ rest) = word :: words rest := by
  rw [words, runs_word_append hword hrest, List.filter_cons, hword.any]
  rfl

theorem words_blanks_append {blanks : Text} (h : ∀ c ∈ blanks, isBlank c = true) {c : Char}
    (hc : isBlank c = false) (tail : Text) : words (blanks ++ c :: tail) = words (c :: tail) := by
  by_cases hne : blanks = []
  · rw [hne, List.nil_append]
  · have hgap : IsGap blanks := ⟨hne, h⟩
    rw [words, runs_gap_append hgap (by simpa using hc), List.filter_cons, hgap.any]
    rfl

theorem words_more (hword : IsWord word) (hgap : IsGap gap) {c : Char} (hc : isBlank c = false)
    (tail : Text) : words (word ++ (gap ++ c :: tail)) = word :: words (c :: tail) := by
  obtain ⟨d, others, rfl⟩ := List.exists_cons_of_ne_nil hgap.nonempty
  have hd := hgap.blank d List.mem_cons_self
  rw [words_word_append hword (by simpa using hd), words_blanks_append hgap.blank hc]

/-- The lines of a text as they are kept, before the empty ones are. -/
def rows (text : Text) : List Text := (splitOn ['\n'] text).map tidy

theorem rows_append_feed (front rest : Text) :
    rows (front ++ '\n' :: rest) = rows front ++ rows rest := by
  rw [rows, splitOn_append_char, List.map_append, rows, rows]

theorem exists_rows (rest : Text) : ∃ line later, ∀ front, '\n' ∉ front →
    rows (front ++ rest) = tidy (front ++ line) :: later := by
  obtain ⟨line, lines, hrest⟩ := List.exists_cons_of_ne_nil (splitFrom_ne_nil ['\n'] 0 rest)
  refine ⟨line, lines.map tidy, fun front hfront => ?_⟩
  have hpass : Passes ['\n'] front rest := passes_of_head rest rfl hfront
  obtain ⟨line', lines', hrest', -, hwhole⟩ := splitOn_of_passes (by simp) hpass
  obtain ⟨rfl, rfl⟩ := List.cons.inj (hrest.symm.trans hrest')
  rw [rows, hwhole, List.map_cons]

theorem rows_blanks {blanks : Text} (h : ∀ c ∈ blanks, isBlank c = true) (rest : Text) :
    rows (blanks ++ rest) = List.replicate (blanks.count '\n') [] ++ rows rest := by
  induction blanks with
  | nil => rfl
  | cons c blanks ih =>
    obtain ⟨hc, hblanks⟩ := List.forall_mem_cons.mp h
    rw [List.cons_append]
    by_cases hfeed : c = '\n'
    · subst hfeed
      have hempty : rows [] = [[]] := rfl
      rw [← List.nil_append ('\n' :: (blanks ++ rest)), rows_append_feed, hempty, ih hblanks,
        List.count_cons_self, List.replicate_succ]
      rfl
    · obtain ⟨line, later, hrows⟩ := exists_rows (blanks ++ rest)
      have hrest := hrows [] (by simp)
      have hwhole := hrows [c] (by simpa using Ne.symm hfeed)
      have htidy : tidy ([c] ++ (line ++ [])) = tidy line :=
        tidy_padded (by simpa using hc) (by simp) line
      rw [List.append_nil] at htidy
      rw [List.nil_append, List.nil_append] at hrest
      rw [List.count_cons_of_ne hfeed, ← ih hblanks, ← List.singleton_append, hwhole, htidy, hrest]

theorem trimEnd_word (hword : IsWord word) {after : Text} (hafter : ∀ c ∈ after, isBlank c = true) :
    trimEnd (word ++ after) = word := by
  obtain ⟨front, c, rfl, hc⟩ := hword.last
  rw [List.append_assoc, List.singleton_append, trimEnd_append_cons front after hc,
    trimEnd_blanks hafter]

theorem tidy_word (hword : IsWord word) {after : Text} (hafter : ∀ c ∈ after, isBlank c = true) :
    tidy (word ++ after) = word := by
  have htidy : tidy ([] ++ (word ++ after)) = tidy word := tidy_padded (by simp) hafter word
  have hcollapse := collapseFrom_word true [] hword.nonempty hword.plain
  rw [List.append_nil] at hcollapse
  rw [List.nil_append] at htidy
  rw [htidy, tidy_eq, hcollapse]
  exact trimEnd_word hword (by simp [collapseFrom])

theorem collapseFrom_gap (hgap : IsGap gap) (rest : Text) :
    collapseFrom false (gap ++ rest) = ' ' :: collapseFrom true rest := by
  obtain ⟨c, blanks, rfl⟩ := List.exists_cons_of_ne_nil hgap.nonempty
  obtain ⟨hc, hblanks⟩ := List.forall_mem_cons.mp hgap.blank
  rw [List.cons_append, collapseFrom, if_pos hc, if_neg (by simp), collapseFrom_blanks hblanks]

theorem tidy_word_gap (hword : IsWord word) (hgap : IsGap gap) {c : Char} (hc : isBlank c = false)
    (tail : Text) : tidy (word ++ (gap ++ c :: tail)) = word ++ ' ' :: tidy (c :: tail) := by
  have hfront := trimEnd_append_cons (word ++ [' ']) (collapseFrom false tail) hc
  have hrest : trimEnd (c :: collapseFrom false tail) = c :: trimEnd (collapseFrom false tail) :=
    trimEnd_append_cons [] _ hc
  have hplain : ∀ afterBlank, collapseFrom afterBlank (c :: tail) = c :: collapseFrom false tail :=
    fun afterBlank => by rw [collapseFrom, if_neg (by simp [hc])]
  rw [tidy_eq, tidy_eq, collapseFrom_word true _ hword.nonempty hword.plain, collapseFrom_gap hgap,
    hplain, hrest]
  simpa only [List.append_assoc, List.singleton_append] using hfront

theorem tidy_ne_nil {c : Char} (hc : isBlank c = false) (tail : Text) : tidy (c :: tail) ≠ [] := by
  have hrest : trimEnd (c :: collapseFrom false tail) = c :: trimEnd (collapseFrom false tail) :=
    trimEnd_append_cons [] _ hc
  rw [tidy_eq, collapseFrom, if_neg (by simp [hc]), hrest]
  exact List.cons_ne_nil _ _

theorem rows_word (hword : IsWord word) {after : Text} (hafter : ∀ c ∈ after, isBlank c = true)
    (hfeed : '\n' ∉ after) : rows (word ++ after) = [word] := by
  have hline : '\n' ∉ word ++ after := by
    rw [List.mem_append]
    rintro (hmem | hmem)
    · exact absurd (hword.plain _ hmem) (by decide)
    · exact hfeed hmem
  rw [rows, splitOn_eq_self hline, List.map_singleton, tidy_word hword hafter]

theorem rows_word_append (hword : IsWord word) {after : Text}
    (hafter : ∀ c ∈ after, isBlank c = true) (hfeed : '\n' ∈ after) (rest : Text) :
    rows (word ++ (after ++ rest)) =
      word :: (List.replicate (after.count '\n' - 1) [] ++ rows rest) := by
  obtain ⟨front, back, rfl, hfront⟩ := List.eq_append_cons_of_mem hfeed
  obtain ⟨hblanks, hback⟩ := List.forall_mem_append.mp hafter
  have hcount : (front ++ '\n' :: back).count '\n' - 1 = back.count '\n' := by
    rw [List.count_append, List.count_eq_zero_of_not_mem hfront, List.count_cons_self]
    omega
  rw [hcount, List.append_assoc, List.cons_append, ← List.append_assoc, rows_append_feed,
    rows_word hword hblanks hfront, rows_blanks (List.forall_mem_cons.mp hback).2]
  rfl

end Text

namespace Markup

open Text

variable {word gap rest text : Text}

theorem squeezeFrom_nil (started gap : Bool) (lines : List Text) :
    squeezeFrom started gap ([] :: lines) = squeezeFrom started started lines := rfl

theorem squeezeFrom_replicate (started gap : Bool) (count : Nat) (lines : List Text) :
    squeezeFrom started gap (List.replicate count [] ++ lines) =
      squeezeFrom started (if count = 0 then gap else started) lines := by
  induction count generalizing gap with
  | zero => rfl
  | succ count ih =>
    rw [List.replicate_succ, List.cons_append, squeezeFrom_nil, ih]
    split <;> rfl

theorem squeezeFrom_cons (started gap : Bool) {line : Text} (h : line ≠ []) (lines : List Text) :
    squeezeFrom started gap (line :: lines) =
      (if gap then [[]] else []) ++ line :: squeezeFrom true false lines := by
  rw [squeezeFrom, if_neg (by simpa using h)]
  cases gap <;> rfl

/-- Empty lines at the end are not kept, so it does not matter how a text ends. -/
theorem squeezeFrom_concat (started gap : Bool) (lines : List Text) :
    squeezeFrom started gap (lines ++ [[]]) = squeezeFrom started gap lines := by
  induction lines generalizing started gap with
  | nil => rfl
  | cons line lines ih =>
    rw [List.cons_append]
    by_cases hline : line = []
    · rw [hline, squeezeFrom_nil, squeezeFrom_nil, ih]
    · rw [squeezeFrom_cons _ _ hline, squeezeFrom_cons _ _ hline, ih]

theorem settle_eq (text : Text) : settle text = join ['\n'] (squeeze (rows text)) := by
  have htidy : ∀ line : Text, tidy ((dropEndMark? ['\r'] line).getD line) = tidy line := by
    intro line
    by_cases hsuffix : ['\r'] <:+ line
    · obtain ⟨stem, rfl⟩ := hsuffix
      have hpadded : tidy ([] ++ (stem ++ ['\r'])) = tidy stem :=
        tidy_padded (by simp) (forall_mem_of_all (by decide)) stem
      rw [dropEndMark?_append, Option.getD_some, ← hpadded, List.nil_append]
    · rw [dropEndMark?, if_neg (by rwa [List.isSuffixOf_iff_suffix]), Option.getD_none]
  have hrows : squeeze ((lines text).map tidy) = squeeze (rows text) := by
    obtain ⟨front, last, hpieces⟩ :=
      (List.eq_nil_or_concat' (splitOn ['\n'] text)).resolve_left (splitFrom_ne_nil _ _ _)
    have hfront : (front.map fun line => (dropEndMark? ['\r'] line).getD line).map tidy =
        front.map tidy := by
      rw [List.map_map]
      exact List.map_congr_left fun line _ => htidy line
    rw [lines, rows, hpieces]
    simp only [List.dropLast_concat, List.getLast?_concat]
    rw [List.map_append, hfront, List.map_append]
    cases last with
    | nil =>
      have hempty : tidy [] = [] := rfl
      have hnone : (Option.filter (fun line : Text => !line.isEmpty) (some [])).toList = [] := rfl
      rw [hnone, List.map_nil, List.append_nil, List.map_singleton, hempty, squeeze, squeeze,
        squeezeFrom_concat]
    | cons c last => rfl
  rw [settle, hrows]

/-- What is kept of the blanks between two words. Two line feeds have an empty line between
them. -/
def separator (gap : Text) : Text :=
  if gap.count '\n' = 0 then [' '] else if gap.count '\n' = 1 then ['\n'] else ['\n', '\n']

theorem isGap_separator (gap : Text) : IsGap (separator gap) := by
  rw [separator]
  split
  · exact ⟨by decide, forall_mem_of_all (by decide)⟩
  · split <;> exact ⟨by decide, forall_mem_of_all (by decide)⟩

theorem join_append_cons (front line : Text) (lines : List Text) :
    join ['\n'] ((front ++ line) :: lines) = front ++ join ['\n'] (line :: lines) := by
  cases lines with
  | nil => simp [join, List.intercalate]
  | cons next lines =>
    rw [join_cons _ _ (List.cons_ne_nil _ _), join_cons _ _ (List.cons_ne_nil _ _)]
    simp only [List.append_assoc]

theorem settle_blanks {blanks : Text} (h : ∀ c ∈ blanks, isBlank c = true) (rest : Text) :
    settle (blanks ++ rest) = settle rest := by
  rw [settle_eq, settle_eq, rows_blanks h, squeeze, squeezeFrom_replicate, ite_self, squeeze]

theorem settle_last (hword : IsWord word) {after : Text} (hafter : ∀ c ∈ after, isBlank c = true) :
    settle (word ++ after) = word := by
  rw [settle_eq]
  by_cases hfeed : '\n' ∈ after
  · have hempty : ∀ gap, squeezeFrom true gap (rows []) = [] := fun _ => rfl
    have hrows := rows_word_append hword hafter hfeed []
    rw [List.append_nil] at hrows
    rw [hrows, squeeze, squeezeFrom_cons _ _ hword.nonempty, squeezeFrom_replicate, hempty]
    simp [join, List.intercalate]
  · rw [rows_word hword hafter hfeed, squeeze, squeezeFrom_cons _ _ hword.nonempty]
    simp [squeezeFrom, join, List.intercalate]

theorem settle_more (hword : IsWord word) (hgap : IsGap gap) {c : Char} (hc : isBlank c = false)
    (tail : Text) :
    settle (word ++ (gap ++ c :: tail)) = word ++ (separator gap ++ settle (c :: tail)) := by
  have hchar : c ≠ '\n' := by
    rintro rfl
    exact absurd hc (by decide)
  obtain ⟨line, later, hrows⟩ := exists_rows tail
  have hrest : rows (c :: tail) = tidy (c :: line) :: later := hrows [c] (by simpa using hchar.symm)
  have hline : tidy (c :: line) ≠ [] := tidy_ne_nil hc line
  rw [settle_eq, settle_eq, hrest, squeeze, squeeze, squeezeFrom_cons _ _ hline]
  by_cases hfeed : '\n' ∈ gap
  · have hpos := List.count_pos_iff.mpr hfeed
    rw [rows_word_append hword hgap.blank hfeed, squeezeFrom_cons _ _ hword.nonempty,
      squeezeFrom_replicate, hrest, squeezeFrom_cons _ _ hline]
    generalize squeezeFrom true false later = others
    have hseparator : separator gap = if gap.count '\n' = 1 then ['\n'] else ['\n', '\n'] := by
      rw [separator, if_neg (Nat.ne_of_gt hpos)]
    rw [hseparator]
    by_cases hone : gap.count '\n' = 1
    · simp [join_cons, hone]
    · have hmore : gap.count '\n' - 1 ≠ 0 := by omega
      simp [join_cons, hone, hmore]
  · have hfront : '\n' ∉ word ++ (gap ++ [c]) := by
      simp only [List.mem_append, List.mem_singleton, not_or]
      exact ⟨fun hmem => absurd (hword.plain _ hmem) (by decide), hfeed, hchar.symm⟩
    have hseparator : separator gap = [' '] := by
      rw [separator, if_pos (List.count_eq_zero_of_not_mem hfeed)]
    have hwhole := hrows _ hfront
    have hsplit : word ++ (gap ++ c :: tail) = word ++ (gap ++ [c]) ++ tail := by simp
    have hfirst : word ++ (gap ++ [c]) ++ line = word ++ (gap ++ c :: line) := by simp
    rw [hfirst, tidy_word_gap hword hgap hc] at hwhole
    have hkept : word ++ ' ' :: tidy (c :: line) ≠ [] := by simp
    have hjoin := join_append_cons (word ++ [' ']) (tidy (c :: line)) (squeezeFrom true false later)
    rw [hsplit, hwhole, hseparator, squeezeFrom_cons _ _ hkept]
    simpa using hjoin

/-- A run of blanks between two words gives way to what is kept of it. -/
def respaced (run : Text) : Text := if run.any isBlank then separator run else run

theorem respaced_word (hword : IsWord word) : respaced word = word := by
  rw [respaced, hword.any]
  rfl

theorem respaced_gap (hgap : IsGap gap) : respaced gap = separator gap := by
  rw [respaced, if_pos hgap.any]

/-- Settled text has the runs of the text itself, each gap settled by itself, and it begins and ends
with a word. -/
theorem runs_settle (h : IsProse text) :
    runs (settle text) = (runs (trimEnd text)).map respaced ∧
      (settle text).head? = text.head? ∧ trimEnd (settle text) = settle text := by
  induction h with
  | @last word after hword hafter =>
    have hend : trimEnd (word ++ []) = word := trimEnd_word hword (by simp)
    rw [List.append_nil] at hend
    rw [settle_last hword hafter, trimEnd_word hword hafter, runs_word hword, List.map_singleton,
      respaced_word hword]
    exact ⟨rfl, (List.head?_append_of_ne_nil word hword.nonempty).symm, hend⟩
  | @more word gap rest hword hgap hrest ih =>
    obtain ⟨c, tail, rfl, hc⟩ := hrest.head
    obtain ⟨hruns, hhead, hend⟩ := ih
    have htrim : ∀ blanks others, trimEnd (word ++ (blanks ++ c :: others)) =
        word ++ (blanks ++ c :: trimEnd others) := by
      intro blanks others
      have h := trimEnd_append_cons (word ++ blanks) others hc
      rwa [List.append_assoc, List.append_assoc] at h
    have hstart : ∀ others, trimEnd (c :: others) = c :: trimEnd others :=
      fun others => trimEnd_append_cons [] others hc
    obtain ⟨others, hsettle⟩ : ∃ others, settle (c :: tail) = c :: others :=
      List.head?_eq_some_iff.mp hhead
    rw [hsettle, hstart] at hend
    rw [hsettle, hstart] at hruns
    rw [settle_more hword hgap hc, hsettle, htrim, runs_more hword (isGap_separator gap) hc, hruns,
      runs_more hword hgap hc, List.map_cons, List.map_cons, respaced_word hword, respaced_gap hgap,
      htrim, hend]
    simp [List.head?_append_of_ne_nil _ hword.nonempty]

theorem words_settle (h : IsProse text) : words (settle text) = words text := by
  induction h with
  | @last word after hword hafter =>
    have halone : words (word ++ []) = word :: words [] := words_word_append hword (by simp)
    rw [List.append_nil] at halone
    rw [settle_last hword hafter, halone, words_word_append hword, words_blanks hafter]
    · rfl
    · exact fun c hc => hafter c (List.mem_of_mem_head? hc)
  | @more word gap rest hword hgap hrest ih =>
    obtain ⟨c, tail, rfl, hc⟩ := hrest.head
    obtain ⟨others, hsettle⟩ : ∃ others, settle (c :: tail) = c :: others :=
      List.head?_eq_some_iff.mp (runs_settle hrest).2.1
    rw [hsettle] at ih
    rw [settle_more hword hgap hc, hsettle, words_more hword (isGap_separator gap) hc, ih,
      words_more hword hgap hc]

theorem settle_respaced (text : Text) :
    runs (settle text) = (runs (trim text)).map respaced ∧ words (settle text) = words text ∧
      trim (settle text) = settle text := by
  obtain ⟨blanks, rest, rfl, hblanks, hrest⟩ := exists_blanks text
  rw [settle_blanks hblanks, trim, trimStart, List.dropWhile_append_of_pos hblanks]
  cases rest with
  | nil =>
    rw [List.append_nil, words_blanks hblanks]
    exact ⟨rfl, rfl, rfl⟩
  | cons c tail =>
    have hc : isBlank c = false := hrest c rfl
    have hprose := isProse_of_head hc tail
    obtain ⟨hruns, hhead, hend⟩ := runs_settle hprose
    obtain ⟨others, hsettle⟩ : ∃ others, settle (c :: tail) = c :: others :=
      List.head?_eq_some_iff.mp hhead
    have hstart : (c :: tail).dropWhile isBlank = c :: tail := trimStart_cons tail hc
    refine ⟨by rw [hstart, hruns], ?_, ?_⟩
    · rw [words_settle hprose, words_blanks_append hblanks hc]
    · rw [trim, hsettle, trimStart_cons others hc, ← hsettle, hend]

theorem stripTags_untagged (h : '>' ∉ text.dropWhile (· != '<')) : stripTags text = text := by
  rw [stripTags]
  induction text with
  | nil => rfl
  | cons c rest ih =>
    rw [stripFrom, if_neg (by simp)]
    by_cases hc : c = '<'
    · subst hc
      have hclose : '>' ∉ rest := fun hmem => h (List.mem_cons_of_mem _ hmem)
      rw [if_pos rfl, if_neg hclose]
    · rw [List.dropWhile_cons, if_pos (by simpa using hc)] at h
      rw [if_neg hc, ih h]

theorem decodeEntities_eq_self (h : ∀ entity ∈ entities, ¬ entity <:+: text) :
    decodeEntities text = text := by
  rw [decodeEntities, replace_eq_self (by decide) _ (h _ (by decide)),
    replace_eq_self (by decide) _ (h _ (by decide)),
    replace_eq_self (by decide) _ (h _ (by decide))]

/-- Reflowed documentation has the words of its text, in order, and between two words one space, one
line end or one empty line, as the text has no, one or more line ends there. Nothing else is left,
so the result is its own reflowed form unless it looks like markup itself. -/
theorem runs_reflow (html : Text) :
    runs (reflow html) = (runs (trim (decodeEntities (stripTags html)))).map respaced ∧
      words (reflow html) = words (decodeEntities (stripTags html)) ∧
      trim (reflow html) = reflow html ∧
      ('>' ∉ (reflow html).dropWhile (· != '<') →
        (∀ entity ∈ entities, ¬ entity <:+: reflow html) → reflow (reflow html) = reflow html) := by
  obtain ⟨hruns, hwords, htrim⟩ := settle_respaced (decodeEntities (stripTags html))
  refine ⟨hruns, hwords, htrim, fun htags hentities => ?_⟩
  rw [reflow_eq (reflow html), stripTags_untagged htags, decodeEntities_eq_self hentities]
  exact isReflowed_reflow html

theorem runs_reflow_compared :
    runs (reflow
        " <p>If a&nbsp;&lt; b,\r\nthe \t<i>first</i>.\n \n\u2028\nSee <b>b</b>.\n".toList) =
        ["If".toList, [' '], ['a'], [' '], ['<'], [' '], "b,".toList, ['\n'], "the".toList, [' '],
          "first.".toList, ['\n', '\n'], "See".toList, [' '], "b.".toList] ∧
      reflow "If a < b,\nthe first.\n\nSee b.".toList =
        "If a < b,\nthe first.\n\nSee b.".toList := by
  obtain ⟨hruns, -, -, hfixed⟩ := runs_reflow
    " <p>If a&nbsp;&lt; b,\r\nthe \t<i>first</i>.\n \n\u2028\nSee <b>b</b>.\n".toList
  have hreflow : reflow
      " <p>If a&nbsp;&lt; b,\r\nthe \t<i>first</i>.\n \n\u2028\nSee <b>b</b>.\n".toList =
      "If a < b,\nthe first.\n\nSee b.".toList := by decide +kernel
  rw [hreflow] at hfixed
  refine ⟨hruns.trans (by decide +kernel), hfixed (by decide +kernel) (by decide +kernel)⟩

end Markup

end ClassSkeleton
