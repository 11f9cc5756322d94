/-!
Text is a list of characters. Pages are addressed by byte offsets into their UTF-8 form, so
`width` counts bytes, and an offset that is past the end or inside a character addresses nothing.
A mark is a fixed piece of text; occurrences of a mark are read from the left without overlap,
and cutting at them loses nothing (`join_splitOn`).
-/
namespace ClassSkeleton

abbrev Text := List Char

namespace Text

/-- Bytes of the UTF-8 form. -/
def width : Text → Nat
  | [] => 0
  | c :: rest => c.utf8Size + width rest

@[simp] theorem width_nil : width [] = 0 := rfl

@[simp] theorem width_cons (c : Char) (rest : Text) :
    width (c :: rest) = c.utf8Size + width rest := rfl

@[simp] theorem width_append (left right : Text) :
    width (left ++ right) = width left + width right := by
  induction left with
  | nil => simp
  | cons c rest ih => simp [ih, Nat.add_assoc]

/-- Characters held by the first `bytes` bytes, on top of the `seen` before them; nothing when
the offset is past the end or inside a character. -/
def charsFrom? (seen : Nat) : Nat → Text → Option Nat
  | 0, _ => some seen
  | _ + 1, [] => none
  | bytes + 1, c :: rest =>
    if c.utf8Size ≤ bytes + 1 then charsFrom? (seen + 1) (bytes + 1 - c.utf8Size) rest else none

def chars? (bytes : Nat) (text : Text) : Option Nat := charsFrom? 0 bytes text

/-- The text from byte `offset` on. -/
def dropBytes? (offset : Nat) (text : Text) : Option Text :=
  (chars? offset text).map text.drop

/-- The first `bytes` bytes of the text. -/
def takeBytes? (bytes : Nat) (text : Text) : Option Text :=
  (chars? bytes text).map text.take

/-- The text between two byte offsets. -/
def slice? (first last : Nat) (text : Text) : Option Text :=
  if first ≤ last then (dropBytes? first text).bind (takeBytes? (last - first)) else none

/-- Where `mark` first stands, as a byte offset counted on from `position`. -/
def findFrom (mark : Text) (position : Nat) : Text → Option Nat
  | [] => if mark.isEmpty then some position else none
  | c :: rest =>
    if mark.isPrefixOf (c :: rest) then some position
    else findFrom mark (position + c.utf8Size) rest

def find? (mark text : Text) : Option Nat := findFrom mark 0 text

def contains (mark text : Text) : Bool := (find? mark text).isSome

/-- The text after a leading `mark`. -/
def dropMark? (mark text : Text) : Option Text :=
  if mark.isPrefixOf text then some (text.drop mark.length) else none

/-- The text before a closing `mark`. -/
def dropEndMark? (mark text : Text) : Option Text :=
  if mark.isSuffixOf text then some (text.take (text.length - mark.length)) else none

/-- What stands before and after the first occurrence of `mark`. -/
def breakAt? (mark : Text) : Text → Option (Text × Text)
  | [] => if mark.isEmpty then some ([], []) else none
  | c :: rest =>
    if mark.isPrefixOf (c :: rest) then some ([], (c :: rest).drop mark.length)
    else (breakAt? mark rest).map fun parts => (c :: parts.1, parts.2)

def consHead (c : Char) : List Text → List Text
  | [] => [[c]]
  | piece :: pieces => (c :: piece) :: pieces

/-- Pieces between the occurrences of a nonempty `mark`, after `skip` characters that belong to
an occurrence already met. -/
def splitFrom (mark : Text) : Nat → Text → List Text
  | _, [] => [[]]
  | skip + 1, _ :: rest => splitFrom mark skip rest
  | 0, c :: rest =>
    if mark.isPrefixOf (c :: rest) then [] :: splitFrom mark (mark.length - 1) rest
    else consHead c (splitFrom mark 0 rest)

/-- Pieces between the occurrences of a nonempty mark; one more than there are occurrences. -/
def splitOn (mark text : Text) : List Text := splitFrom mark 0 text

def join (separator : Text) (pieces : List Text) : Text := separator.intercalate pieces

/-- Every occurrence of `mark` exchanged for `new`. -/
def replace (mark new text : Text) : Text := join new (splitOn mark text)

def occurrences (mark text : Text) : Nat := (splitOn mark text).length - 1

/-- Lines are closed by a line feed, together with a carriage return right before it; what
follows the last line feed is a line of its own unless it is empty. -/
def lines (text : Text) : List Text :=
  let pieces := splitOn ['\n'] text
  pieces.dropLast.map (fun line => (dropEndMark? ['\r'] line).getD line) ++
    (pieces.getLast?.filter fun line => !line.isEmpty).toList

/-- Every line followed by a line feed. -/
def unlines (lines : List Text) : Text := lines.flatMap fun line => line ++ ['\n']

def decimal (n : Nat) : Text := Nat.toDigits 10 n

/-- Strictly earlier in the order of code points, which is also that of the UTF-8 bytes. -/
def precedes (a b : Text) : Bool := a.lex b fun c d => c.toNat < d.toNat

/-- The texts in ascending order. Equal ones stay as they stand. -/
def sort (texts : List Text) : List Text := texts.mergeSort fun a b => !precedes b a

theorem eq_of_charsFrom? {seen bytes count : Nat} {text : Text}
    (h : charsFrom? seen bytes text = some count) :
    ∃ front back, text = front ++ back ∧ width front = bytes ∧ count = seen + front.length := by
  induction text generalizing seen bytes with
  | nil =>
    cases bytes with
    | zero => exact ⟨[], [], rfl, rfl, by simpa [charsFrom?] using h.symm⟩
    | succ bytes => simp [charsFrom?] at h
  | cons c rest ih =>
    cases bytes with
    | zero => exact ⟨[], c :: rest, rfl, rfl, by simpa [charsFrom?] using h.symm⟩
    | succ bytes =>
      simp only [charsFrom?] at h
      split at h
      · obtain ⟨front, back, rfl, hw, rfl⟩ := ih h
        refine ⟨c :: front, back, rfl, ?_, ?_⟩
        · rw [width_cons, hw]
          omega
        · simp only [List.length_cons]
          omega
      · simp at h

/-- An offset that addresses a text splits it there. -/
theorem eq_of_dropBytes? {offset : Nat} {text rest : Text}
    (h : dropBytes? offset text = some rest) :
    ∃ front, text = front ++ rest ∧ width front = offset := by
  obtain ⟨count, hc, rfl⟩ := Option.map_eq_some_iff.mp h
  obtain ⟨front, back, rfl, hw, rfl⟩ := eq_of_charsFrom? hc
  exact ⟨front, by simp, hw⟩

theorem eq_of_findFrom {mark text : Text} {position place : Nat}
    (h : findFrom mark position text = some place) :
    ∃ before after, text = before ++ mark ++ after ∧ place = position + width before := by
  induction text generalizing position with
  | nil =>
    simp only [findFrom, List.isEmpty_iff] at h
    split at h
    · rename_i hm
      exact ⟨[], [], by simp [hm], by simpa using h.symm⟩
    · simp at h
  | cons c rest ih =>
    simp only [findFrom] at h
    split at h
    · rename_i hp
      obtain ⟨tail, htail⟩ := List.isPrefixOf_iff_prefix.mp hp
      exact ⟨[], tail, by simp [htail], by simpa using h.symm⟩
    · obtain ⟨before, after, rfl, rfl⟩ := ih h
      exact ⟨c :: before, after, by simp, by simp [Nat.add_assoc]⟩

theorem eq_of_breakAt? {mark text before after : Text}
    (h : breakAt? mark text = some (before, after)) : text = before ++ mark ++ after := by
  induction text generalizing before with
  | nil =>
    simp only [breakAt?, List.isEmpty_iff] at h
    split at h
    · simp_all
    · exact absurd h (by simp)
  | cons c rest ih =>
    simp only [breakAt?] at h
    split at h
    · rename_i hp
      obtain ⟨tail, htail⟩ := List.isPrefixOf_iff_prefix.mp hp
      obtain ⟨rfl, rfl⟩ := Prod.mk.inj (Option.some.inj h)
      rw [← htail]
      simp
    · obtain ⟨parts, hparts, hp⟩ := Option.map_eq_some_iff.mp h
      obtain ⟨rfl, rfl⟩ := Prod.mk.inj hp
      simp [ih (show breakAt? mark rest = some (parts.1, parts.2) from hparts)]

theorem eq_of_dropMark? {mark text rest : Text} (h : dropMark? mark text = some rest) :
    text = mark ++ rest := by
  simp only [dropMark?] at h
  split at h
  · rename_i hp
    obtain ⟨tail, rfl⟩ := List.isPrefixOf_iff_prefix.mp hp
    simpa using h
  · exact absurd h (by simp)

theorem splitFrom_ne_nil (mark : Text) (skip : Nat) (text : Text) :
    splitFrom mark skip text ≠ [] := by
  induction text generalizing skip with
  | nil => simp [splitFrom]
  | cons c rest ih =>
    cases skip with
    | succ skip => simpa only [splitFrom] using ih skip
    | zero =>
      simp only [splitFrom]
      split
      · simp
      · cases h : splitFrom mark 0 rest with
        | nil => exact absurd h (ih 0)
        | cons piece pieces => simp [consHead]

theorem splitFrom_skip (mark : Text) (skip : Nat) (text : Text) :
    splitFrom mark skip text = splitFrom mark 0 (text.drop skip) := by
  induction skip generalizing text with
  | zero => rfl
  | succ skip ih =>
    cases text with
    | nil => rfl
    | cons c rest => simpa only [splitFrom, List.drop_succ_cons] using ih rest

theorem join_cons (separator piece : Text) {pieces : List Text} (h : pieces ≠ []) :
    join separator (piece :: pieces) = piece ++ separator ++ join separator pieces := by
  cases pieces with
  | nil => exact absurd rfl h
  | cons next pieces => simp [join, List.intercalate, List.append_assoc]

theorem join_consHead (separator : Text) (c : Char) {pieces : List Text} (h : pieces ≠ []) :
    join separator (consHead c pieces) = c :: join separator pieces := by
  cases pieces with
  | nil => exact absurd rfl h
  | cons piece pieces =>
    cases pieces with
    | nil => simp [consHead, join, List.intercalate]
    | cons next pieces => simp [consHead, join_cons]

theorem join_splitOn {mark : Text} (h : mark ≠ []) (text : Text) :
    join mark (splitOn mark text) = text := by
  obtain ⟨m, ms, rfl⟩ := List.exists_cons_of_ne_nil h
  suffices ∀ n, ∀ text : Text, text.length ≤ n →
      join (m :: ms) (splitFrom (m :: ms) 0 text) = text from this _ text (Nat.le_refl _)
  intro n
  induction n with
  | zero =>
    intro text hn
    rw [List.length_eq_zero_iff.mp (Nat.le_zero.mp hn)]
    simp [splitFrom, join, List.intercalate]
  | succ n ih =>
    intro text hn
    cases text with
    | nil => simp [splitFrom, join, List.intercalate]
    | cons c rest =>
      have hrest : rest.length ≤ n := by simpa using hn
      simp only [splitFrom]
      split
      · rename_i hp
        obtain ⟨tail, htail⟩ := List.isPrefixOf_iff_prefix.mp hp
        simp only [List.cons_append, List.cons.injEq] at htail
        rw [splitFrom_skip, join_cons _ _ (splitFrom_ne_nil _ _ _), ih _ (by simp; omega)]
        obtain ⟨rfl, rfl⟩ := htail
        simp
      · rw [join_consHead _ _ (splitFrom_ne_nil _ _ _), ih rest hrest]

end Text

end ClassSkeleton
