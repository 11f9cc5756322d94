import ClassSkeleton.Proofs.Markup.Seam

/-!
A cursor on its way through a text. It may be asked where a mark stands, moved to a mark, made to
extract, or put further on, in any order. Whatever it is asked, it never goes back or past the end,
and it stays where it is when nothing is found, as inside a character nothing ever is. So the
extracts of a whole scan stand one behind the other, with their marks.
-/
namespace ClassSkeleton.Markup

open Text

inductive Move where
  | peek (mark : Text)
  | seek (mark : Text)
  | between (opening closing : Text)
  | advance (position : Nat)
  deriving DecidableEq, Repr

/-- What a cursor answers; a cursor that is put further on answers nothing. -/
inductive Answer where
  | place (found : Option Nat)
  | piece (found : Except ScanError Extract)
  | done

namespace Answer

/-- What was looked for is not there. -/
inductive Fails : Answer → Prop where
  | place : Fails (.place none)
  | piece (mark : Text) : Fails (.piece (.error (.missing mark)))

def extract? : Answer → Option Extract
  | .piece (.ok extract) => some extract
  | _ => none

end Answer

/-- A move of a cursor, with the answer. -/
structure Step where
  before : Cursor
  move : Move
  answer : Answer
  after : Cursor

namespace Cursor

def perform (cursor : Cursor) : Move → Answer × Cursor
  | .peek mark => (.place (cursor.peek mark), cursor)
  | .seek mark => (.place (cursor.seek mark).1, (cursor.seek mark).2)
  | .between opening closing =>
    (.piece (cursor.between opening closing).1, (cursor.between opening closing).2)
  | .advance position => (.done, cursor.advanceTo position)

def step (cursor : Cursor) (move : Move) : Step :=
  ⟨cursor, move, (cursor.perform move).1, (cursor.perform move).2⟩

/-- The steps of a whole scan. -/
def scan (cursor : Cursor) : List Move → List Step
  | [] => []
  | move :: moves => cursor.step move :: scan (cursor.step move).after moves

end Cursor

section Extracts

variable {text opening closing : Text} {start : Nat} {extract : Extract}

/-- An extract with its marks, as they stand in the text: the first opening mark behind an offset,
the extract right behind it, and right behind that the first closing mark. -/
structure Extract.StandsIn (text opening closing : Text) (start : Nat) (extract : Extract) :
    Prop where
  opened : ∃ first, IsFirst text opening start first ∧ LiesBetween text opening first extract.start
  inner : LiesBetween text extract.inner extract.start (extract.start + width extract.inner)
  closed : IsFirst text closing extract.start (extract.start + width extract.inner) ∧
    LiesBetween text closing (extract.start + width extract.inner) extract.after

theorem LiesBetween.add_width {piece : Text} {first last : Nat}
    (h : LiesBetween text piece first last) :
    first + width piece = last ∧ last ≤ width text := by
  obtain ⟨front, back, rfl, rfl, rfl⟩ := h
  refine ⟨(width_append front piece).symm, ?_⟩
  rw [← List.append_assoc, width_append _ back]
  exact Nat.le_add_right _ _

theorem liesBetween_of_locate {mark : Text} {place : Nat}
    (h : locate text mark start = some place) :
    LiesBetween text mark place (place + width mark) := by
  obtain ⟨before, after, rfl, rfl, -⟩ := eq_of_locate h
  exact ⟨before, after, by simp, by simp⟩

theorem standsIn_of_extractBetween (h : extractBetween text opening closing start = .ok extract) :
    extract.StandsIn text opening closing start := by
  obtain ⟨first, last, hopen, hclose, hinner, hstart, hafter⟩ := extractBetween_eq_ok_iff.mp h
  have hpiece : LiesBetween text extract.inner (first + width opening) last :=
    liesBetween_iff.mpr hinner
  obtain rfl : first + width opening + width extract.inner = last := hpiece.add_width.1
  refine ⟨⟨first, (isFirst_of_locate hopen).2, ?_⟩, ?_, ?_, ?_⟩
  · rw [hstart]
    exact liesBetween_of_locate hopen
  · rwa [hstart]
  · rw [hstart]
    exact (isFirst_of_locate hclose).2
  · rw [hstart, hafter]
    exact liesBetween_of_locate hclose

/-- What stands in a text stands behind the offset from which it was looked for, and not past the
end of the text. -/
theorem Extract.StandsIn.bounds (h : extract.StandsIn text opening closing start) :
    start ≤ extract.start ∧ extract.start ≤ extract.after ∧ extract.after ≤ width text := by
  obtain ⟨first, hfirst, hopening⟩ := h.opened
  have hbehind : start ≤ first := hfirst.1.1
  have hopened := hopening.add_width
  have hclosed := h.closed.2.add_width
  omega

end Extracts

namespace Cursor

inductive Goes (cursor : Cursor) : Move → Answer → Cursor → Prop where
  | missed {move : Move} {answer : Answer} (hfails : answer.Fails) : Goes cursor move answer cursor
  | seen {mark : Text} {place : Nat} (hseam : IsSeam cursor.text cursor.position) :
      Goes cursor (.peek mark) (.place (some place)) cursor
  | sought {mark : Text} {place : Nat} (hseam : IsSeam cursor.text cursor.position)
      (hforward : cursor.position ≤ place) (hwithin : place ≤ width cursor.text) :
      Goes cursor (.seek mark) (.place (some place)) { cursor with position := place }
  | extracted {opening closing : Text} {extract : Extract}
      (hseam : IsSeam cursor.text cursor.position)
      (hstands : extract.StandsIn cursor.text opening closing cursor.position) :
      Goes cursor (.between opening closing) (.piece (.ok extract))
        { cursor with position := extract.after }
  | advanced {position later : Nat} (hforward : cursor.position ≤ later)
      (hwithin : later ≤ width cursor.text) :
      Goes cursor (.advance position) .done { cursor with position := later }

theorem goes_perform {cursor : Cursor} (h : cursor.position ≤ width cursor.text) (move : Move) :
    cursor.Goes move (cursor.perform move).1 (cursor.perform move).2 := by
  cases move with
  | peek mark =>
    rw [perform]
    cases hplace : cursor.peek mark with
    | none => exact .missed .place
    | some place => exact .seen (isFirst_of_locate hplace).1
  | seek mark =>
    cases hplace : cursor.peek mark with
    | none =>
      simp only [perform, seek, hplace]
      exact .missed .place
    | some place =>
      obtain ⟨hle, hwidth⟩ := locate_bounds hplace
      simp only [perform, seek, hplace]
      exact .sought (isFirst_of_locate hplace).1 hle (Nat.le_trans (Nat.le_add_right _ _) hwidth)
  | between opening closing =>
    cases hfound : extractBetween cursor.text opening closing cursor.position with
    | error e =>
      obtain ⟨mark, rfl⟩ := missing_of_extractBetween hfound
      simp only [perform, between, hfound]
      exact .missed (.piece mark)
    | ok extract =>
      obtain ⟨first, last, hopen, -⟩ := extractBetween_eq_ok_iff.mp hfound
      simp only [perform, between, hfound]
      exact .extracted (isFirst_of_locate hopen).1 (standsIn_of_extractBetween hfound)
  | advance position =>
    simp only [perform, advanceTo]
    split
    · exact .advanced (by omega) (Nat.min_le_right _ _)
    · exact .advanced (Nat.le_refl _) h

end Cursor

/-- A step goes forward in the text, and only if it finds what it looks for. -/
structure Step.GoesForward (text : Text) (step : Step) : Prop where
  text_eq : step.after.text = text
  forward : step.before.position ≤ step.after.position
  within : step.after.position ≤ width text
  failed : step.answer.Fails → step.after = step.before
  /-- Inside a character, everything that is looked for is missing. -/
  unseamed : ¬ IsSeam text step.before.position →
    step.answer.Fails ∨ ∃ position, step.move = .advance position
  /-- A piece that is not extracted lacks a mark; no cut is refused. -/
  refused : ∀ e, step.answer = .piece (.error e) → step.answer.Fails
  extracted : ∀ extract, step.answer.extract? = some extract →
    step.after.position = extract.after ∧ ∃ opening closing,
      step.move = .between opening closing ∧
      extract.StandsIn text opening closing step.before.position

theorem goesForward_of_goes {cursor next : Cursor} {move : Move} {answer : Answer}
    (hcursor : cursor.position ≤ width cursor.text) (h : cursor.Goes move answer next) :
    Step.GoesForward cursor.text ⟨cursor, move, answer, next⟩ where
  text_eq := by cases h <;> rfl
  forward := by
    cases h with
    | missed | seen => exact Nat.le_refl _
    | sought _ hforward | advanced hforward => exact hforward
    | extracted _ hstands => exact hstands.bounds.1.trans hstands.bounds.2.1
  within := by
    cases h with
    | missed | seen => exact hcursor
    | sought _ _ hwithin | advanced _ hwithin => exact hwithin
    | extracted _ hstands => exact hstands.bounds.2.2
  failed := by
    intro hfails
    cases h with
    | missed | seen => rfl
    | sought | extracted | advanced => cases hfails
  unseamed := by
    intro hseam
    cases h with
    | missed hfails => exact .inl hfails
    | seen h | sought h | extracted h => exact absurd h hseam
    | advanced => exact .inr ⟨_, rfl⟩
  refused := by
    intro e he
    cases h with
    | missed hfails => exact hfails
    | seen | sought | extracted | advanced => cases he
  extracted := by
    intro extract hextract
    cases h with
    | missed hfails => cases hfails <;> cases hextract
    | seen | sought | advanced => cases hextract
    | extracted _ hstands =>
      cases hextract
      exact ⟨rfl, _, _, rfl, hstands⟩

/-- The extracts of a scan. -/
def extracts (steps : List Step) : List Extract := steps.filterMap fun step => step.answer.extract?

/-- The steps of a scan go forward one behind the other, and so do its extracts. -/
structure Scan (text : Text) (start : Nat) (steps : List Step) : Prop where
  goesForward : ∀ step ∈ steps, step.GoesForward text
  behind : ∀ step ∈ steps, start ≤ step.before.position
  inTurn : steps.Pairwise fun step later => step.after.position ≤ later.before.position
  apart : (extracts steps).Pairwise fun extract later => extract.after ≤ later.start

theorem Scan.extract_start {text : Text} {start : Nat} {steps : List Step}
    (h : Scan text start steps) : ∀ extract ∈ extracts steps, start ≤ extract.start := by
  intro extract hmem
  obtain ⟨step, hstep, hextract⟩ := List.mem_filterMap.mp hmem
  obtain ⟨-, opening, closing, -, hstands⟩ := (h.goesForward step hstep).extracted extract hextract
  exact (h.behind step hstep).trans hstands.bounds.1

theorem Scan.cons {text : Text} {step : Step} {steps : List Step} (hstep : step.GoesForward text)
    (h : Scan text step.after.position steps) : Scan text step.before.position (step :: steps) where
  goesForward := List.forall_mem_cons.mpr ⟨hstep, h.goesForward⟩
  behind := List.forall_mem_cons.mpr ⟨Nat.le_refl _, fun later hlater =>
    Nat.le_trans hstep.forward (h.behind later hlater)⟩
  inTurn := List.pairwise_cons.mpr ⟨h.behind, h.inTurn⟩
  apart := by
    rw [extracts, List.filterMap_cons]
    cases hanswer : step.answer.extract? with
    | none => exact h.apart
    | some extract =>
      obtain ⟨hafter, -⟩ := hstep.extracted extract hanswer
      refine List.pairwise_cons.mpr ⟨fun later hlater => ?_, h.apart⟩
      rw [← hafter]
      exact h.extract_start later hlater

theorem scan_of_cursor (cursor : Cursor) (h : cursor.position ≤ width cursor.text)
    (moves : List Move) : Scan cursor.text cursor.position (cursor.scan moves) := by
  -- Every step leaves a cursor in the same text and not past its end, from which the rest goes on.
  induction moves generalizing cursor with
  | nil => exact ⟨by simp [Cursor.scan], by simp [Cursor.scan], .nil, .nil⟩
  | cons move moves ih =>
    have hstep : (cursor.step move).GoesForward cursor.text :=
      goesForward_of_goes h (Cursor.goes_perform h move)
    have hrest := ih (cursor.step move).after (by rw [hstep.text_eq]; exact hstep.within)
    rw [hstep.text_eq] at hrest
    exact Scan.cons hstep hrest

/-- However a text is scanned from its beginning, no step goes back or past the end, none that finds
nothing moves, an extract is left right behind its closing mark, as that stands in the text, and the
extracts stand one behind the other. -/
theorem scan_forward (text : Text) (moves : List Move) :
    Scan text 0 ((Cursor.start text).scan moves) :=
  scan_of_cursor (Cursor.start text) (Nat.zero_le _) moves

/-- Two pieces of a text. From the middle of the wide character between them the second is not
found, and behind it there is no third. -/
example :
    let piece : Move := .between "<b>".toList "</b>".toList
    let steps := (Cursor.start "<b>a</b>é<b>z</b>".toList).scan
      [piece, .advance 9, piece, .advance 10, piece, piece]
    extracts steps = [⟨"a".toList, 3, 8⟩, ⟨"z".toList, 13, 18⟩] ∧
      steps.map (·.after.position) = [8, 9, 9, 10, 18, 18] := by decide

end ClassSkeleton.Markup
