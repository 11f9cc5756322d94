import ClassSkeleton.Proofs.Markup.Plain

/-!
Type parameters written between angle brackets. A parameter may have parameters of its own: its
brackets match, and only inside of them does it have commas. Such a list is taken apart again
into exactly its parameters.
-/
namespace ClassSkeleton.Declaration

open Text Markup

/-- Brackets match from `depth` on without ever leaving the range of the count, and commas stand
inside of them. -/
def Balanced (depth : Nat) : Text → Prop
  | [] => depth = 0
  | c :: rest =>
    if c = '<' then depth + 1 ≤ 2147483647 ∧ Balanced (depth + 1) rest
    else if c = '>' then 0 < depth ∧ Balanced (depth - 1) rest
    else (c = ',' → 0 < depth) ∧ Balanced depth rest

instance decidableBalanced : (depth : Nat) → (text : Text) → Decidable (Balanced depth text)
  | depth, [] => inferInstanceAs (Decidable (depth = 0))
  | depth, c :: rest =>
    have := decidableBalanced (depth + 1) rest
    have := decidableBalanced (depth - 1) rest
    have := decidableBalanced depth rest
    inferInstanceAs (Decidable (if c = '<' then depth + 1 ≤ 2147483647 ∧ Balanced (depth + 1) rest
      else if c = '>' then 0 < depth ∧ Balanced (depth - 1) rest
      else (c = ',' → 0 < depth) ∧ Balanced depth rest))

/-- Brackets match from `depth` on, however many there are, and commas stand inside of them. -/
def Matched (depth : Nat) : Text → Prop
  | [] => depth = 0
  | c :: rest =>
    if c = '<' then Matched (depth + 1) rest
    else if c = '>' then 0 < depth ∧ Matched (depth - 1) rest
    else (c = ',' → 0 < depth) ∧ Matched depth rest

instance decidableMatched : (depth : Nat) → (text : Text) → Decidable (Matched depth text)
  | depth, [] => inferInstanceAs (Decidable (depth = 0))
  | depth, c :: rest =>
    have := decidableMatched (depth + 1) rest
    have := decidableMatched (depth - 1) rest
    have := decidableMatched depth rest
    inferInstanceAs (Decidable (if c = '<' then Matched (depth + 1) rest
      else if c = '>' then 0 < depth ∧ Matched (depth - 1) rest
      else (c = ',' → 0 < depth) ∧ Matched depth rest))

theorem Balanced.matched {depth : Nat} {text : Text} (h : Balanced depth text) :
    Matched depth text := by
  induction text generalizing depth with
  | nil => exact h
  | cons c rest ih =>
    rw [Balanced] at h
    rw [Matched]
    split
    · rename_i hopen
      rw [if_pos hopen] at h
      exact ih h.2
    · rename_i hopen
      rw [if_neg hopen] at h
      split
      · rename_i hclose
        rw [if_pos hclose] at h
        exact ⟨h.1, ih h.2⟩
      · rename_i hclose
        rw [if_neg hclose] at h
        exact ⟨h.1, ih h.2⟩

/-- The count cannot leave its range in fewer characters than it has numbers. -/
theorem Matched.balanced {depth : Nat} {text : Text} (h : Matched depth text)
    (hlength : depth + text.length ≤ 2147483647) : Balanced depth text := by
  induction text generalizing depth with
  | nil => exact h
  | cons c rest ih =>
    rw [List.length_cons] at hlength
    rw [Matched] at h
    rw [Balanced]
    split
    · rename_i hopen
      rw [if_pos hopen] at h
      exact ⟨by omega, ih h (by omega)⟩
    · rename_i hopen
      rw [if_neg hopen] at h
      split
      · rename_i hclose
        rw [if_pos hclose] at h
        exact ⟨h.1, ih h.2 (by omega)⟩
      · rename_i hclose
        rw [if_neg hclose] at h
        exact ⟨h.1, ih h.2 (by omega)⟩

theorem matched_filter (depth : Nat) (text : Text) :
    Matched depth (text.filter fun c => !isBlank c) ↔ Matched depth text := by
  induction text generalizing depth with
  | nil => rfl
  | cons c rest ih =>
    cases hblank : isBlank c with
    | false => rw [List.filter_cons_of_pos (by simp [hblank]), Matched, Matched, ih, ih, ih]
    | true =>
      have hplain : c ≠ '<' ∧ c ≠ '>' ∧ c ≠ ',' := by
        refine ⟨?_, ?_, ?_⟩ <;> rintro rfl <;> exact absurd hblank (by decide)
      rw [List.filter_cons_of_neg (by simp [hblank]), Matched, if_neg hplain.1, if_neg hplain.2.1,
        ih]
      simp [hplain.2.2]

theorem balanced_filter (depth : Nat) (text : Text) :
    Balanced depth (text.filter fun c => !isBlank c) ↔ Balanced depth text := by
  induction text generalizing depth with
  | nil => rfl
  | cons c rest ih =>
    cases hblank : isBlank c with
    | false => rw [List.filter_cons_of_pos (by simp [hblank]), Balanced, Balanced, ih, ih, ih]
    | true =>
      have hplain : c ≠ '<' ∧ c ≠ '>' ∧ c ≠ ',' := by
        refine ⟨?_, ?_, ?_⟩ <;> rintro rfl <;> exact absurd hblank (by decide)
      rw [List.filter_cons_of_neg (by simp [hblank]), Balanced, if_neg hplain.1,
        if_neg hplain.2.1, ih]
      simp [hplain.2.2]

/-- A type parameter as it stands between commas. -/
structure IsParameter (parameter : Text) : Prop where
  nonempty : parameter ≠ []
  spaced : collapse parameter = parameter
  trimmed : trim parameter = parameter
  balanced : Balanced 0 parameter

theorem foldr_consHead (piece first : Text) (pieces : List Text) :
    piece.foldr consHead (first :: pieces) = (piece ++ first) :: pieces := by
  induction piece with
  | nil => rfl
  | cons c piece ih => rw [List.foldr_cons, ih, consHead, List.cons_append]

theorem nest_eq {depth change : Int} (hlow : -2147483648 ≤ depth + change)
    (hhigh : depth + change ≤ 2147483647) : nest depth change = .ok (depth + change) := by
  rw [nest, if_pos ⟨hlow, hhigh⟩]

theorem piecesFrom_balanced {depth : Nat} {piece : Text} (h : Balanced depth piece)
    (hdepth : depth ≤ 2147483647) (rest : Text) :
    piecesFrom ',' depth (piece ++ rest) = (piecesFrom ',' 0 rest).map (piece.foldr consHead) := by
  induction piece generalizing depth with
  | nil =>
    obtain rfl : depth = 0 := h
    rw [List.nil_append]
    cases piecesFrom ',' 0 rest <;> rfl
  | cons c piece ih =>
    rw [Balanced] at h
    rw [List.cons_append, piecesFrom]
    split
    · rename_i hopen
      rw [if_pos hopen] at h
      rw [nest_eq (by omega) (by omega)]
      have hnext := ih h.2 h.1
      rw [Int.natCast_add] at hnext
      simp only [bind, Except.bind, pure, Except.pure]
      rw [show (depth : Int) + 1 = (depth : Int) + ((1 : Nat) : Int) from rfl, hnext]
      cases piecesFrom ',' 0 rest <;> rfl
    · rename_i hopen
      rw [if_neg hopen] at h
      split
      · rename_i hclose
        rw [if_pos hclose] at h
        rw [nest_eq (by omega) (by omega)]
        have hnext := ih h.2 (by omega)
        have hcast : ((depth - 1 : Nat) : Int) = (depth : Int) + -1 := by omega
        rw [hcast] at hnext
        simp only [bind, Except.bind, pure, Except.pure]
        rw [hnext]
        cases piecesFrom ',' 0 rest <;> rfl
      · rename_i hclose
        rw [if_neg hclose] at h
        have hinside : ¬ (c = ',' ∧ (depth : Int) = 0) := by
          rintro ⟨hcomma, hzero⟩
          have := h.1 hcomma
          omega
        rw [if_neg hinside, ih h.2 hdepth]
        cases piecesFrom ',' 0 rest <;> rfl

/-- Where brackets are nested too deep, the count of them leaves its range. -/
theorem piecesFrom_deep {depth : Nat} {piece : Text} (h : Matched depth piece)
    (hdeep : ¬ Balanced depth piece) (hdepth : depth ≤ 2147483647) (rest : Text) :
    piecesFrom ',' depth (piece ++ rest) = .error .depth := by
  induction piece generalizing depth with
  | nil => exact absurd h hdeep
  | cons c piece ih =>
    rw [Matched] at h
    rw [Balanced] at hdeep
    rw [List.cons_append, piecesFrom]
    split
    · rename_i hopen
      rw [if_pos hopen] at h hdeep
      by_cases hmore : depth + 1 ≤ 2147483647
      · have hnext := ih h (fun hpiece => hdeep ⟨hmore, hpiece⟩) hmore
        rw [Int.natCast_add, Int.natCast_one] at hnext
        rw [nest_eq (by omega) (by omega)]
        simp only [bind, Except.bind, hnext]
      · rw [nest, if_neg (by omega)]
        rfl
    · rename_i hopen
      rw [if_neg hopen] at h hdeep
      split
      · rename_i hclose
        rw [if_pos hclose] at h hdeep
        have hnext := ih h.2 (fun hpiece => hdeep ⟨h.1, hpiece⟩) (by omega)
        rw [show ((depth - 1 : Nat) : Int) = (depth : Int) + -1 by omega] at hnext
        rw [nest_eq (by omega) (by omega)]
        simp only [bind, Except.bind, hnext]
      · rename_i hclose
        rw [if_neg hclose] at h hdeep
        have hinside : ¬ (c = ',' ∧ (depth : Int) = 0) := by
          rintro ⟨hcomma, hzero⟩
          have := h.1 hcomma
          omega
        rw [if_neg hinside, ih h.2 (fun hpiece => hdeep ⟨h.1, hpiece⟩) hdepth]
        rfl

theorem piecesFrom_join {parameters : List Text} (hne : parameters ≠ [])
    (h : ∀ parameter ∈ parameters, Balanced 0 parameter) :
    piecesFrom ',' 0 (join [','] parameters) = .ok parameters := by
  induction parameters with
  | nil => exact absurd rfl hne
  | cons first rest ih =>
    have hfirst := piecesFrom_balanced (h first List.mem_cons_self) (Nat.zero_le _)
    rw [Int.natCast_zero] at hfirst
    cases rest with
    | nil =>
      have hlast := hfirst []
      rw [List.append_nil] at hlast
      have hjoin : join [','] [first] = first := by simp [join, List.intercalate]
      rw [hjoin, hlast, piecesFrom]
      simp only [Except.map, foldr_consHead, List.append_nil]
    | cons second rest =>
      rw [join_cons _ _ (by simp), List.append_assoc, hfirst, List.singleton_append, piecesFrom,
        if_neg (by decide), if_neg (by decide), if_pos (by simp),
        ih (by simp) fun parameter hmem => h parameter (List.mem_cons_of_mem first hmem)]
      simp only [bind, Except.bind, pure, Except.pure, Except.map, foldr_consHead, List.append_nil]

theorem piecesFrom_join_deep {pieces : List Text} (h : ∀ piece ∈ pieces, Matched 0 piece)
    (hdeep : ¬ ∀ piece ∈ pieces, Balanced 0 piece) :
    piecesFrom ',' 0 (join [','] pieces) = .error .depth := by
  induction pieces with
  | nil => exact absurd (by simp) hdeep
  | cons first rest ih =>
    rw [List.forall_mem_cons] at h hdeep
    by_cases hfirst : Balanced 0 first
    · obtain ⟨second, others, rfl⟩ : ∃ second others, rest = second :: others := by
        cases rest with
        | nil => exact absurd ⟨hfirst, by simp⟩ hdeep
        | cons second others => exact ⟨second, others, rfl⟩
      have hlater := ih h.2 fun hrest => hdeep ⟨hfirst, hrest⟩
      have hpiece := piecesFrom_balanced hfirst (Nat.zero_le _)
      rw [Int.natCast_zero] at hpiece
      rw [join_cons _ _ (by simp), List.append_assoc, hpiece, List.singleton_append, piecesFrom,
        if_neg (by decide), if_neg (by decide), if_pos (by simp), hlater]
      rfl
    · have hpiece := piecesFrom_deep h.1 hfirst (Nat.zero_le _)
      rw [Int.natCast_zero] at hpiece
      cases rest with
      | nil =>
        rw [show join [','] [first] = first ++ [] by simp [join, List.intercalate], hpiece]
      | cons second others => rw [join_cons _ _ (by simp), List.append_assoc, hpiece]

/-- What is written between commas is taken apart at exactly these commas. -/
theorem splitTopLevel_pieces {pieces parameters : List Text} (hne : pieces ≠ [])
    (h : ∀ piece ∈ pieces, Matched 0 piece) (htrim : pieces.map trim = parameters)
    (hkept : ∀ parameter ∈ parameters, parameter ≠ []) :
    splitTopLevel (join [','] pieces) ',' =
      if ∀ piece ∈ pieces, Balanced 0 piece then .ok parameters else .error .depth := by
  have hfilter : (parameters.filter fun piece => !piece.isEmpty) = parameters := by
    rw [List.filter_eq_self]
    intro parameter hmem
    simp [hkept parameter hmem]
  rw [splitTopLevel]
  split
  · rename_i hbalanced
    rw [piecesFrom_join hne hbalanced]
    simp only [bind, Except.bind, pure, Except.pure]
    rw [htrim, hfilter]
  · rename_i hdeep
    rw [piecesFrom_join_deep h hdeep]
    rfl

theorem splitTopLevel_join {parameters : List Text} (hne : parameters ≠ [])
    (h : ∀ parameter ∈ parameters, IsParameter parameter) :
    splitTopLevel (join [','] parameters) ',' = .ok parameters := by
  have htrim : parameters.map trim = parameters := by
    calc
      _ = parameters.map id := List.map_congr_left fun parameter hmem => (h parameter hmem).trimmed
      _ = parameters := List.map_id parameters
  rw [splitTopLevel_pieces hne (fun parameter hmem => (h parameter hmem).balanced.matched) htrim
    fun parameter hmem => (h parameter hmem).nonempty]
  exact if_pos fun parameter hmem => (h parameter hmem).balanced

theorem outerArguments?_brackets {front : Text} (inner : Text) (h : '<' ∉ front) :
    outerArguments? (front ++ '<' :: (inner ++ ['>'])) = some inner := by
  have hpass : Passes ['<'] front (['<'] ++ (inner ++ ['>'])) :=
    passes_of_head _ rfl h
  have hbreak := breakAt?_of_passes_mark (inner ++ ['>']) (by simp) hpass
  rw [List.append_assoc, List.singleton_append] at hbreak
  rw [outerArguments?, hbreak]
  simp

theorem outerArguments?_eq_none {heading : Text} (h : '<' ∉ heading) :
    outerArguments? heading = none := by
  have hnone : ¬ ['<'] <:+: heading := fun hocc => h (hocc.subset List.mem_cons_self)
  rw [outerArguments?, (breakAt?_eq_none_iff (by simp) heading).mpr hnone]

theorem collapse_join (pieces : List Text) :
    collapse (join [','] pieces) = join [','] (pieces.map collapse) := by
  induction pieces with
  | nil => rfl
  | cons first rest ih =>
    cases rest with
    | nil => simp [join, List.intercalate]
    | cons second rest =>
      rw [join_cons _ first (List.cons_ne_nil _ _), List.map_cons,
        join_cons _ (collapse first) (by simp), ← ih, List.append_assoc, List.append_assoc,
        List.singleton_append, List.singleton_append, collapse,
        collapseFrom_append_cons false first _ (by decide)]
      rfl

theorem outerArguments?_plain {name : Text} (inner : Text) (h : '<' ∉ name) :
    outerArguments? (trim (collapse (name ++ '<' :: (inner ++ ['>'])))) =
      some (collapse inner) := by
  have hcollapse : collapse (name ++ '<' :: (inner ++ ['>'])) =
      collapse name ++ '<' :: (collapse inner ++ ['>']) := by
    rw [collapse, collapseFrom_append_cons false _ _ (by decide),
      collapseFrom_append_cons false inner [] (by decide)]
    rfl
  have hend := trimEnd_append_cons (c := '>')
    (trimStart (collapse name) ++ '<' :: collapse inner) [] (by decide)
  have hopen : '<' ∉ trimStart (collapse name) := by
    intro hmem
    rcases mem_collapseFrom ((List.dropWhile_suffix isBlank).mem hmem) with heq | hmem
    · exact absurd heq (by decide)
    · exact h hmem
  have htrim : trim (collapse (name ++ '<' :: (inner ++ ['>']))) =
      trimStart (collapse name) ++ '<' :: (collapse inner ++ ['>']) := by
    rw [trim, hcollapse, trimStart_append_cons _ _ (by decide)]
    simpa [trimEnd] using hend
  rw [htrim, outerArguments?_brackets _ hopen]

end ClassSkeleton.Declaration
