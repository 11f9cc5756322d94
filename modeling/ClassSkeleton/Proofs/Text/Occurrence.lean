import ClassSkeleton.Text.Basic

/-!
Where a mark first occurs in a text that is put together from parts. A part passes a mark if no
occurrence begins in it, whatever stands behind it. A part without the mark passes it as soon as
the text behind it begins with something that the end of the mark cannot run into. The search for
a mark skips every part that passes it, and cutting at a mark goes on behind each occurrence.
-/
namespace ClassSkeleton.Text

theorem forall_mem_of_all {p : Char → Prop} [DecidablePred p] {text : Text}
    (h : (text.all fun c => decide (p c)) = true) : ∀ c ∈ text, p c := by
  simpa using h

/-- What stands on both sides of the first occurrence of an item is decided by the whole. -/
theorem split_unique {α : Type} {q : α} {before before' after after' : List α}
    (hbefore : q ∉ before) (hbefore' : q ∉ before')
    (h : before ++ q :: after = before' ++ q :: after') : before = before' ∧ after = after' := by
  induction before generalizing before' with
  | nil =>
    cases before' with
    | nil => exact ⟨rfl, by simpa using h⟩
    | cons c before' =>
      rw [List.nil_append, List.cons_append, List.cons.injEq] at h
      exact absurd (h.1 ▸ List.mem_cons_self) hbefore'
  | cons c before ih =>
    cases before' with
    | nil =>
      rw [List.nil_append, List.cons_append, List.cons.injEq] at h
      exact absurd (h.1 ▸ List.mem_cons_self) hbefore
    | cons c' before' =>
      rw [List.cons_append, List.cons_append, List.cons.injEq] at h
      obtain ⟨heq, hafter⟩ := ih (fun hmem => hbefore (List.mem_cons_of_mem c hmem))
        (fun hmem => hbefore' (List.mem_cons_of_mem c' hmem)) h.2
      exact ⟨by rw [h.1, heq], hafter⟩

/-- No occurrence of `mark` in `gap ++ rest` begins in `gap`. -/
def Passes (mark gap rest : Text) : Prop :=
  ∀ front back, gap = front ++ back → back ≠ [] → ¬ mark <+: back ++ rest

/-- No proper end of `mark` agrees with the beginning of `next`. -/
def Apart (mark next : Text) : Prop :=
  ∀ k < mark.length, 0 < k → ¬ mark.drop k <+: next ∧ ¬ next <+: mark.drop k

instance (mark next : Text) : Decidable (Apart mark next) :=
  inferInstanceAs (Decidable (∀ k < mark.length, 0 < k →
    ¬ mark.drop k <+: next ∧ ¬ next <+: mark.drop k))

@[simp] theorem passes_nil (mark rest : Text) : Passes mark [] rest := by
  intro front back heq hne
  exact absurd (List.append_eq_nil_iff.mp heq.symm).2 hne

theorem passes_cons (mark gap rest : Text) (c : Char) :
    Passes mark (c :: gap) rest ↔ ¬ mark <+: c :: (gap ++ rest) ∧ Passes mark gap rest := by
  constructor
  · intro h
    refine ⟨h [] (c :: gap) rfl (by simp), ?_⟩
    intro front back heq hne
    exact h (c :: front) back (by rw [heq, List.cons_append]) hne
  · rintro ⟨hhead, htail⟩ front back heq hne
    cases front with
    | nil =>
      rw [List.nil_append] at heq
      subst heq
      exact hhead
    | cons first front =>
      rw [List.cons_append, List.cons.injEq] at heq
      exact htail front back heq.2 hne

theorem passes_append (mark left right rest : Text) :
    Passes mark (left ++ right) rest ↔
      Passes mark left (right ++ rest) ∧ Passes mark right rest := by
  induction left with
  | nil => simp
  | cons c left ih =>
    rw [List.cons_append, passes_cons, passes_cons, ih, List.append_assoc, and_assoc]

theorem not_infix_of_passes {mark gap rest : Text} (hmark : mark ≠ [])
    (h : Passes mark gap rest) : ¬ mark <:+: gap := by
  rintro ⟨front, back, rfl⟩
  apply h front (mark ++ back) (by simp) (by simp [hmark])
  rw [List.append_assoc]
  exact List.prefix_append mark (back ++ rest)

/-- A mark that begins in a part does not reach beyond it when its end cannot run into what
follows. -/
theorem prefix_of_apart {mark next back : Text} (rest : Text) (hback : back ≠ [])
    (hnext : Apart mark next) (hlead : mark <+: back ++ (next ++ rest)) : mark <+: back := by
  by_cases hlen : mark.length ≤ back.length
  · exact List.prefix_of_prefix_length_le hlead (List.prefix_append back _) hlen
  · exfalso
    have hmark : back <+: mark :=
      List.prefix_of_prefix_length_le (List.prefix_append back _) hlead (by omega)
    obtain ⟨tail, rfl⟩ := hmark
    rw [List.prefix_append_right_inj] at hlead
    have hlength := List.length_pos_iff.mpr hback
    simp only [List.length_append] at hlen
    have hapart := hnext back.length (by simp only [List.length_append]; omega) hlength
    rw [List.drop_left] at hapart
    rcases List.prefix_or_prefix_of_prefix hlead (List.prefix_append next rest) with h | h
    · exact hapart.1 h
    · exact hapart.2 h

/-- A mark that stands neither in a part nor across its end does not begin in it. -/
theorem passes_of_apart {mark next gap : Text} (rest : Text) (hgap : ¬ mark <:+: gap)
    (hnext : Apart mark next) : Passes mark gap (next ++ rest) := by
  intro front back heq hne hlead
  apply hgap
  rw [heq]
  exact (prefix_of_apart rest hne hnext hlead).isInfix.trans (List.suffix_append front back).isInfix

/-- No occurrence of `mark` begins in `gap`, whatever follows it. -/
def Clear (mark gap : Text) : Prop :=
  ∀ k < gap.length, ¬ mark <+: gap.drop k ∧ ¬ gap.drop k <+: mark

instance (mark gap : Text) : Decidable (Clear mark gap) :=
  inferInstanceAs (Decidable (∀ k < gap.length, ¬ mark <+: gap.drop k ∧ ¬ gap.drop k <+: mark))

theorem passes_of_clear {mark gap : Text} (h : Clear mark gap) (rest : Text) :
    Passes mark gap rest := by
  intro front back heq hne hlead
  have hlength := List.length_pos_iff.mpr hne
  have hclear := h front.length (by rw [heq, List.length_append]; omega)
  rw [heq, List.drop_left] at hclear
  rcases List.prefix_or_prefix_of_prefix hlead (List.prefix_append back rest) with h | h
  · exact hclear.1 h
  · exact hclear.2 h

theorem passes_of_head {mark gap : Text} {c : Char} (rest : Text) (hmark : mark.head? = some c)
    (h : c ∉ gap) : Passes mark gap rest := by
  intro front back heq hne hlead
  obtain ⟨tail, rfl⟩ := List.head?_eq_some_iff.mp hmark
  obtain ⟨d, back, rfl⟩ := List.exists_cons_of_ne_nil hne
  obtain rfl : c = d := (List.cons_prefix_cons.mp hlead).1
  apply h
  rw [heq]
  simp

theorem apart_of_not_mem {mark : Text} {c : Char} (h : c ∉ mark.tail) : Apart mark [c] := by
  intro k hk hpos
  have hsub : ∀ d ∈ mark.drop k, d ∈ mark.tail := by
    intro d hd
    rw [← List.drop_one]
    exact (List.drop_subset_drop_left mark hpos) hd
  have hne : mark.drop k ≠ [] := by
    intro hnil
    have := List.drop_eq_nil_iff.mp hnil
    omega
  constructor
  · intro hlead
    rcases List.prefix_cons_iff.mp hlead with hnil | ⟨tail, heq, -⟩
    · exact hne hnil
    · exact h (hsub c (by rw [heq]; exact List.mem_cons_self))
  · intro hlead
    exact h (hsub c (hlead.subset List.mem_cons_self))

theorem passes_of_not_mem {mark gap : Text} {c : Char} (rest : Text) (hgap : ¬ mark <:+: gap)
    (h : c ∉ mark.tail) : Passes mark gap (c :: rest) :=
  passes_of_apart rest hgap (apart_of_not_mem h)

theorem passes_concat {mark gap : Text} {c : Char} (rest : Text) (hmark : mark ≠ [])
    (hgap : ¬ mark <:+: gap) (hc : c ∉ mark) : Passes mark (gap ++ [c]) rest := by
  rw [passes_append, passes_cons]
  refine ⟨passes_of_not_mem rest hgap fun hmem => hc (List.mem_of_mem_tail hmem), ?_,
    passes_nil mark rest⟩
  intro hlead
  obtain ⟨d, tail, rfl⟩ := List.exists_cons_of_ne_nil hmark
  obtain ⟨rfl, -⟩ := List.cons_prefix_cons.mp hlead
  exact hc List.mem_cons_self

theorem Passes.of_shorter {mark gap rest front : Text} (h : Passes mark gap rest)
    (hfront : front <+: rest) : Passes mark gap front := by
  intro before back heq hne hlead
  exact h before back heq hne (hlead.trans ((List.prefix_append_right_inj back).mpr hfront))

/-- A part without the mark is passed if its last character stands in the mark at most at the end
of it. -/
theorem passes_of_last {mark text : Text} {c : Char} (rest : Text) (h : ¬ mark <:+: text ++ [c])
    (hc : c ∉ mark.dropLast) : Passes mark (text ++ [c]) rest := by
  intro front back heq hne hlead
  have hsuffix : back <:+ text ++ [c] := ⟨front, heq.symm⟩
  by_cases hlen : mark.length ≤ back.length
  · apply h
    exact (List.prefix_of_prefix_length_le hlead (List.prefix_append back rest) hlen).isInfix.trans
      hsuffix.isInfix
  · have hback : back <+: mark.dropLast := by
      have hmark : back <+: mark :=
        List.prefix_of_prefix_length_le (List.prefix_append back rest) hlead (by omega)
      apply List.prefix_of_prefix_length_le hmark (List.dropLast_prefix mark)
      rw [List.length_dropLast]
      omega
    rcases List.suffix_concat_iff.mp hsuffix with hnil | ⟨start, rfl, -⟩
    · exact hne hnil
    · exact hc (hback.subset List.mem_concat_self)

theorem passes_end {mark gap : Text} (hgap : ¬ mark <:+: gap) : Passes mark gap [] := by
  intro front back heq _ hlead
  rw [List.append_nil] at hlead
  apply hgap
  rw [heq]
  exact hlead.isInfix.trans (List.suffix_append front back).isInfix

/-- A mark that is longer than what its head can be found in does not reach across the end. -/
theorem passes_of_tail {mark front tail : Text} {c : Char} (rest : Text)
    (hgap : ¬ mark <:+: front ++ tail) (hlen : mark.length ≤ tail.length)
    (hmark : mark.head? = some c) (hhead : c ∉ tail.tail) : Passes mark (front ++ tail) rest := by
  intro lead back heq hne hlead
  by_cases hfit : mark.length ≤ back.length
  · apply hgap
    rw [heq]
    have hback := List.prefix_of_prefix_length_le hlead (List.prefix_append back rest) hfit
    exact hback.isInfix.trans (List.suffix_append lead back).isInfix
  · have hsuffix : back <:+ tail := by
      apply List.suffix_of_suffix_length_le (List.suffix_append lead back) _ (by omega)
      rw [← heq]
      exact List.suffix_append front tail
    obtain ⟨d, backTail, rfl⟩ := List.exists_cons_of_ne_nil hne
    obtain ⟨markTail, rfl⟩ := List.head?_eq_some_iff.mp hmark
    obtain rfl : c = d := (List.cons_prefix_cons.mp hlead).1
    apply hhead
    obtain ⟨start, rfl⟩ := hsuffix
    cases start with
    | nil =>
      simp only [List.nil_append] at hlen
      omega
    | cons e start => simp

theorem isPrefixOf_eq_false {mark text : Text} (h : ¬ mark <+: text) :
    mark.isPrefixOf text = false := by
  rw [← Bool.not_eq_true, List.isPrefixOf_iff_prefix]
  exact h

theorem dropMark?_append (mark rest : Text) : dropMark? mark (mark ++ rest) = some rest := by
  rw [dropMark?, if_pos, List.drop_left]
  rw [List.isPrefixOf_iff_prefix]
  exact List.prefix_append mark rest

theorem dropMark?_eq_none {mark text : Text} (h : ¬ mark <+: text) :
    dropMark? mark text = none := by
  rw [dropMark?, isPrefixOf_eq_false h]
  rfl

theorem breakAt?_mark {mark : Text} (hmark : mark ≠ []) (rest : Text) :
    breakAt? mark (mark ++ rest) = some ([], rest) := by
  cases h : mark ++ rest with
  | nil => exact absurd (List.append_eq_nil_iff.mp h).1 hmark
  | cons c tail =>
    rw [breakAt?, if_pos, ← h, List.drop_left]
    rw [List.isPrefixOf_iff_prefix, ← h]
    exact List.prefix_append mark rest

theorem breakAt?_of_passes {mark gap rest : Text} (h : Passes mark gap rest) :
    breakAt? mark (gap ++ rest) =
      (breakAt? mark rest).map fun parts => (gap ++ parts.1, parts.2) := by
  induction gap with
  | nil => simp
  | cons c gap ih =>
    obtain ⟨hhead, htail⟩ := (passes_cons mark gap rest c).mp h
    rw [List.cons_append, breakAt?, if_neg (by simpa using hhead), ih htail, Option.map_map]
    rfl

theorem breakAt?_of_passes_mark {mark gap : Text} (rest : Text) (hmark : mark ≠ [])
    (h : Passes mark gap (mark ++ rest)) :
    breakAt? mark (gap ++ mark ++ rest) = some (gap, rest) := by
  rw [List.append_assoc, breakAt?_of_passes h, breakAt?_mark hmark]
  simp

theorem breakAt?_of_apart {mark gap : Text} (rest : Text) (hmark : mark ≠ [])
    (hgap : ¬ mark <:+: gap) (hapart : Apart mark mark) :
    breakAt? mark (gap ++ mark ++ rest) = some (gap, rest) :=
  breakAt?_of_passes_mark rest hmark (passes_of_apart rest hgap hapart)

theorem passes_of_breakAt? {mark text before after : Text}
    (h : breakAt? mark text = some (before, after)) : Passes mark before (mark ++ after) := by
  induction text generalizing before with
  | nil =>
    simp only [breakAt?] at h
    split at h
    · obtain ⟨rfl, rfl⟩ := Prod.mk.inj (Option.some.inj h)
      exact passes_nil mark _
    · exact absurd h (by simp)
  | cons c rest ih =>
    rw [breakAt?] at h
    split at h
    · obtain ⟨rfl, rfl⟩ := Prod.mk.inj (Option.some.inj h)
      exact passes_nil mark _
    · rename_i hlead
      obtain ⟨⟨front, back⟩, hparts, hp⟩ := Option.map_eq_some_iff.mp h
      obtain ⟨rfl, rfl⟩ := Prod.mk.inj hp
      have hrest := eq_of_breakAt? hparts
      rw [passes_cons]
      refine ⟨?_, ih hparts⟩
      intro hpre
      apply hlead
      rw [List.isPrefixOf_iff_prefix, hrest, List.append_assoc]
      exact hpre

theorem breakAt?_eq_none_iff {mark : Text} (hmark : mark ≠ []) (text : Text) :
    breakAt? mark text = none ↔ ¬ mark <:+: text := by
  constructor
  · intro h hocc
    obtain ⟨front, back, rfl⟩ := hocc
    induction front with
    | nil =>
      rw [List.nil_append, breakAt?_mark hmark] at h
      exact absurd h (by simp)
    | cons c front ih =>
      rw [List.cons_append, List.cons_append, breakAt?] at h
      split at h
      · exact absurd h (by simp)
      · exact ih (Option.map_eq_none_iff.mp h)
  · intro h
    have hpass := breakAt?_of_passes (passes_end h)
    rw [List.append_nil] at hpass
    rw [hpass, breakAt?, if_neg (by simpa using hmark)]
    rfl

theorem breakAt?_append {mark text before after : Text} (hmark : mark ≠ [])
    (h : breakAt? mark text = some (before, after)) (more : Text) :
    breakAt? mark (text ++ more) = some (before, after ++ more) := by
  have hpass := passes_of_breakAt? h
  rw [eq_of_breakAt? h, List.append_assoc]
  apply breakAt?_of_passes_mark (after ++ more) hmark
  intro front back heq hne hlead
  apply hpass front back heq hne
  have hlen : mark.length ≤ (back ++ (mark ++ after)).length := by
    simp only [List.length_append]
    omega
  apply List.prefix_of_prefix_length_le hlead _ hlen
  exact ⟨more, by simp⟩

theorem findFrom_eq_breakAt? (mark text : Text) (position : Nat) :
    findFrom mark position text =
      (breakAt? mark text).map fun parts => position + width parts.1 := by
  induction text generalizing position with
  | nil =>
    rw [findFrom, breakAt?]
    split <;> simp
  | cons c rest ih =>
    rw [findFrom, breakAt?]
    split
    · simp
    · rw [ih, Option.map_map]
      apply congrArg (fun f => Option.map f (breakAt? mark rest))
      funext parts
      simp only [Function.comp, width_cons]
      omega

theorem contains_eq_false_iff {mark : Text} (hmark : mark ≠ []) (text : Text) :
    contains mark text = false ↔ ¬ mark <:+: text := by
  rw [contains, find?, findFrom_eq_breakAt?, ← breakAt?_eq_none_iff hmark]
  simp

theorem contains_iff {mark : Text} (hmark : mark ≠ []) (text : Text) :
    contains mark text = true ↔ mark <:+: text := by
  have h := contains_eq_false_iff hmark text
  cases hc : contains mark text <;> simp_all

theorem splitOn_eq {mark : Text} (hmark : mark ≠ []) (text : Text) :
    splitOn mark text =
      match breakAt? mark text with
      | none => [text]
      | some (before, after) => before :: splitOn mark after := by
  induction text with
  | nil =>
    rw [splitOn, splitFrom, breakAt?, if_neg (by simpa using hmark)]
  | cons c rest ih =>
    rw [splitOn, splitFrom, breakAt?]
    split
    · rename_i hlead
      obtain ⟨m, ms, rfl⟩ := List.exists_cons_of_ne_nil hmark
      simp only [splitOn, List.length_cons, Nat.add_sub_cancel, List.drop_succ_cons]
      rw [splitFrom_skip]
    · rw [← splitOn, ih]
      cases hbreak : breakAt? mark rest with
      | none => rfl
      | some parts => rfl

theorem splitOn_of_passes {mark gap rest : Text} (hmark : mark ≠ []) (h : Passes mark gap rest) :
    ∃ front pieces, splitOn mark rest = front :: pieces ∧ front <+: rest ∧
      splitOn mark (gap ++ rest) = (gap ++ front) :: pieces := by
  rw [splitOn_eq hmark, splitOn_eq hmark (gap ++ rest), breakAt?_of_passes h]
  cases hbreak : breakAt? mark rest with
  | none => exact ⟨rest, [], rfl, List.prefix_refl rest, rfl⟩
  | some parts =>
    obtain ⟨before, after⟩ := parts
    refine ⟨before, splitOn mark after, rfl, ?_, rfl⟩
    rw [eq_of_breakAt? hbreak, List.append_assoc]
    exact List.prefix_append before _

theorem occurrences_of_passes {mark front rest : Text} (hmark : mark ≠ [])
    (h : Passes mark front rest) : occurrences mark (front ++ rest) = occurrences mark rest := by
  obtain ⟨first, pieces, hrest, -, hwhole⟩ := splitOn_of_passes hmark h
  rw [occurrences, occurrences, hrest, hwhole]
  rfl

theorem occurrences_mark {mark : Text} (hmark : mark ≠ []) (rest : Text) :
    occurrences mark (mark ++ rest) = occurrences mark rest + 1 := by
  have hpos := List.length_pos_iff.mpr (splitFrom_ne_nil mark 0 rest)
  rw [occurrences, occurrences, splitOn_eq hmark, breakAt?_mark hmark]
  simp only [List.length_cons, splitOn]
  omega

theorem splitOn_flatMap {mark : Text} (hmark : mark ≠ []) (hself : Apart mark mark) {front : Text}
    {pieces : List Text} (hfront : ¬ mark <:+: front)
    (hpieces : ∀ piece ∈ pieces, ¬ mark <:+: piece) :
    splitOn mark (front ++ pieces.flatMap (mark ++ ·)) = front :: pieces := by
  induction pieces generalizing front with
  | nil =>
    rw [List.flatMap_nil, List.append_nil, splitOn_eq hmark,
      (breakAt?_eq_none_iff hmark front).mpr hfront]
  | cons piece pieces ih =>
    rw [List.flatMap_cons, ← List.append_assoc, ← List.append_assoc, List.append_assoc,
      splitOn_eq hmark, breakAt?_of_apart _ hmark hfront hself]
    simp only
    rw [ih (hpieces piece List.mem_cons_self) fun other hmem =>
      hpieces other (List.mem_cons_of_mem piece hmem)]

theorem splitOn_append_mark {mark : Text} (hmark : mark ≠ []) (hself : Apart mark mark)
    (front rest : Text) :
    splitOn mark (front ++ (mark ++ rest)) = splitOn mark front ++ splitOn mark rest := by
  obtain ⟨n, hn⟩ : ∃ n, front.length ≤ n := ⟨_, Nat.le_refl _⟩
  induction n generalizing front with
  | zero =>
    obtain rfl := List.length_eq_zero_iff.mp (Nat.le_zero.mp hn)
    rw [List.nil_append, splitOn_eq hmark, breakAt?_mark hmark]
    rfl
  | succ n ih =>
    rw [splitOn_eq hmark (front ++ _), splitOn_eq hmark front]
    cases hbreak : breakAt? mark front with
    | none =>
      have hfront := (breakAt?_eq_none_iff hmark front).mp hbreak
      rw [← List.append_assoc, breakAt?_of_apart rest hmark hfront hself]
      rfl
    | some parts =>
      obtain ⟨before, after⟩ := parts
      have hshort : after.length ≤ n := by
        have hpos := List.length_pos_iff.mpr hmark
        rw [eq_of_breakAt? hbreak, List.length_append, List.length_append] at hn
        omega
      rw [breakAt?_append hmark hbreak]
      simp only [List.cons_append]
      rw [ih after hshort]

theorem splitOn_append_char (c : Char) (front rest : Text) :
    splitOn [c] (front ++ c :: rest) = splitOn [c] front ++ splitOn [c] rest :=
  splitOn_append_mark (by simp) (apart_of_not_mem (by simp)) front rest

theorem splitOn_eq_self {c : Char} {word : Text} (h : c ∉ word) : splitOn [c] word = [word] := by
  have hnone : ¬ [c] <:+: word := fun hocc => h (hocc.subset List.mem_cons_self)
  rw [splitOn_eq (by simp), (breakAt?_eq_none_iff (by simp) word).mpr hnone]

theorem splitOn_cons_char {c : Char} {word : Text} (rest : Text) (h : c ∉ word) :
    splitOn [c] (word ++ c :: rest) = word :: splitOn [c] rest := by
  rw [splitOn_append_char, splitOn_eq_self h, List.singleton_append]

theorem splitOn_join {c : Char} {pieces : List Text} (hne : pieces ≠ [])
    (h : ∀ piece ∈ pieces, c ∉ piece) : splitOn [c] (join [c] pieces) = pieces := by
  induction pieces with
  | nil => exact absurd rfl hne
  | cons piece pieces ih =>
    have hpiece : c ∉ piece := h piece List.mem_cons_self
    by_cases hpieces : pieces = []
    · subst hpieces
      simpa [join, List.intercalate] using splitOn_eq_self hpiece
    · rw [join_cons _ _ hpieces, List.append_assoc, List.singleton_append,
        splitOn_cons_char _ hpiece,
        ih hpieces fun other ho => h other (List.mem_cons_of_mem _ ho)]

theorem not_mem_of_mem_splitOn {c : Char} {text piece : Text} (h : piece ∈ splitOn [c] text) :
    c ∉ piece := by
  induction text generalizing piece with
  | nil =>
    obtain rfl := by simpa [splitOn, splitFrom] using h
    simp
  | cons d text ih =>
    rw [splitOn, splitFrom] at h
    by_cases hd : [c].isPrefixOf (d :: text) = true
    · rw [if_pos hd] at h
      rcases List.mem_cons.mp h with rfl | h
      · simp
      · exact ih h
    · rw [if_neg hd] at h
      have hne : c ≠ d := by simpa using hd
      unfold splitOn at ih
      cases hpieces : splitFrom [c] 0 text with
      | nil => exact absurd hpieces (splitFrom_ne_nil _ _ _)
      | cons next pieces =>
        rw [hpieces] at h ih
        rcases List.mem_cons.mp h with rfl | h
        · have hnext : c ∉ next := ih List.mem_cons_self
          simp [hne, hnext]
        · exact ih (List.mem_cons_of_mem _ h)

theorem join_concat (separator piece : Text) {pieces : List Text} (h : pieces ≠ []) :
    join separator (pieces ++ [piece]) = join separator pieces ++ separator ++ piece := by
  induction pieces with
  | nil => exact absurd rfl h
  | cons next pieces ih =>
    by_cases hpieces : pieces = []
    · subst hpieces
      simp [join, List.intercalate]
    · rw [List.cons_append, join_cons _ _ (by simp), join_cons _ _ hpieces, ih hpieces]
      simp [List.append_assoc]

theorem mem_join {c : Char} {separator : Text} {pieces : List Text}
    (h : c ∈ join separator pieces) : c ∈ separator ∨ ∃ piece ∈ pieces, c ∈ piece := by
  induction pieces with
  | nil => simp [join, List.intercalate] at h
  | cons piece pieces ih =>
    by_cases hpieces : pieces = []
    · subst hpieces
      exact Or.inr ⟨piece, by simp, by simpa [join, List.intercalate] using h⟩
    · rw [join_cons _ _ hpieces, List.mem_append, List.mem_append] at h
      rcases h with (h | h) | h
      · exact Or.inr ⟨piece, by simp, h⟩
      · exact Or.inl h
      · rcases ih h with h | ⟨other, ho, h⟩
        · exact Or.inl h
        · exact Or.inr ⟨other, List.mem_cons_of_mem _ ho, h⟩

theorem mem_join_of_mem {c : Char} (separator : Text) {piece : Text} {pieces : List Text}
    (hpiece : piece ∈ pieces) (h : c ∈ piece) : c ∈ join separator pieces := by
  induction pieces with
  | nil => simp at hpiece
  | cons next pieces ih =>
    by_cases hpieces : pieces = []
    · subst hpieces
      obtain rfl := List.mem_singleton.mp hpiece
      simpa [join, List.intercalate] using h
    · rw [join_cons _ _ hpieces]
      rcases List.mem_cons.mp hpiece with rfl | hpiece
      · simp [h]
      · exact List.mem_append_right _ (ih hpiece)

theorem join_ne_nil (separator : Text) {piece : Text} {pieces : List Text}
    (hpiece : piece ∈ pieces) (hne : piece ≠ []) : join separator pieces ≠ [] := by
  obtain ⟨c, rest, rfl⟩ := List.exists_cons_of_ne_nil hne
  exact List.ne_nil_of_mem (mem_join_of_mem separator hpiece List.mem_cons_self)

theorem join_concat_eq_flatMap (separator piece : Text) (pieces : List Text) :
    join separator (pieces ++ [piece]) =
      (pieces.flatMap fun other => other ++ separator) ++ piece := by
  induction pieces with
  | nil => simp [join, List.intercalate]
  | cons next pieces ih =>
    rw [List.cons_append, join_cons _ _ (by simp), ih, List.flatMap_cons,
      List.append_assoc _ _ piece]

theorem join_append_ending (separator piece ending : Text) (pieces : List Text) :
    join separator (pieces ++ [piece ++ ending]) =
      join separator (pieces ++ [piece]) ++ ending := by
  rw [join_concat_eq_flatMap, join_concat_eq_flatMap, List.append_assoc]

theorem join_join (separator : Text) (front : List Text) {back : List Text} (hback : back ≠ []) :
    join separator (front ++ [join separator back]) = join separator (front ++ back) := by
  induction front with
  | nil => simp [join, List.intercalate]
  | cons piece front ih =>
    rw [List.cons_append, List.cons_append, join_cons _ _ (by simp),
      join_cons _ _ (by simp [hback]), ih]

theorem map_join (f : Char → Char) (separator : Text) (pieces : List Text) :
    (join separator pieces).map f = join (separator.map f) (pieces.map (·.map f)) := by
  induction pieces with
  | nil => rfl
  | cons piece pieces ih =>
    by_cases hpieces : pieces = []
    · subst hpieces
      simp [join, List.intercalate]
    · rw [join_cons _ _ hpieces, List.map_cons, join_cons _ _ (by simpa using hpieces),
        List.map_append, List.map_append, ih]

theorem dropEndMark?_append (text mark : Text) : dropEndMark? mark (text ++ mark) = some text := by
  have hsuffix : mark.isSuffixOf (text ++ mark) = true :=
    List.isSuffixOf_iff_suffix.mpr (List.suffix_append _ _)
  rw [dropEndMark?, if_pos hsuffix]
  simp

end ClassSkeleton.Text
