import ClassSkeleton.Text.CombiningClass
import ClassSkeleton.Text.Decomposition

/-!
The composed form of a text, Unicode's normalization form C: every character is taken apart, the
marks of each letter are put in order of their classes, and a letter takes in every mark that it has
a composite with and that no mark of the same class keeps away. Syllables of Hangul are taken apart
and composed by number. Putting marks in order loses none (`orderMarks_perm`), and text without
marks and composites, such as any in ASCII, is in composed form (`composed_eq_self`).
-/
namespace ClassSkeleton.Text

namespace Hangul

def firstSyllable : Nat := 0xAC00

def firstLead : Nat := 0x1100

def leads : Nat := 19

def firstVowel : Nat := 0x1161

def vowels : Nat := 21

/-- One before the first tail: a syllable may go without. -/
def noTail : Nat := 0x11A7

def tails : Nat := 28

def syllables : Nat := leads * vowels * tails

def isSyllable (c : Char) : Bool :=
  firstSyllable ≤ c.toNat && c.toNat < firstSyllable + syllables

def letters (c : Char) : Text :=
  let number := c.toNat - firstSyllable
  let tail := number % tails
  Char.ofNat (firstLead + number / (vowels * tails)) ::
    Char.ofNat (firstVowel + number / tails % vowels) ::
    if tail = 0 then [] else [Char.ofNat (noTail + tail)]

/-- The syllable of a lead and a vowel, or of an open syllable and a tail. -/
def join? (c d : Char) : Option Char :=
  let (first, next) := (c.toNat, d.toNat)
  if firstLead ≤ first ∧ first < firstLead + leads ∧
      firstVowel ≤ next ∧ next < firstVowel + vowels then
    let openNumber := (first - firstLead) * vowels + (next - firstVowel)
    some (Char.ofNat (firstSyllable + openNumber * tails))
  else if isSyllable c ∧ (first - firstSyllable) % tails = 0 ∧
      noTail < next ∧ next < noTail + tails then
    some (Char.ofNat (first + (next - noTail)))
  else none

end Hangul

/-- The parts of a character that cannot be taken apart any further. -/
def parts (c : Char) : Text :=
  if c.toNat < 0xC0 then [c]
  else if Hangul.isSyllable c then Hangul.letters c
  else
    match formIn? compositeRows c with
    | some form => form
    | none => (formIn? variantRows c).getD [c]

theorem parts_of_lt {c : Char} (h : c.toNat < 0xC0) : parts c = [c] := by simp [parts, h]

/-- Put a mark behind all before it, given backward, that have no higher class. -/
def insertMark (mark : Char) : Text → Text
  | [] => [mark]
  | c :: before =>
    if combiningClass mark < combiningClass c then c :: insertMark mark before
    else mark :: c :: before

/-- Add a character to those before it, given backward, with the marks in order. -/
def addOrdered (before : Text) (c : Char) : Text :=
  if combiningClass c = 0 then c :: before else insertMark c before

/-- The marks behind each letter in order of their classes. -/
def orderMarks (text : Text) : Text := (text.foldl addOrdered []).reverse

theorem insertMark_perm (mark : Char) (before : Text) :
    (insertMark mark before).Perm (mark :: before) := by
  induction before with
  | nil => exact .refl _
  | cons c before ih =>
    rw [insertMark]
    split
    · exact (ih.cons c).trans (.swap mark c before)
    · exact .refl _

theorem orderMarks_perm (text : Text) : (orderMarks text).Perm text := by
  have hadd (rest before : Text) : (rest.foldl addOrdered before).Perm (rest ++ before) := by
    induction rest generalizing before with
    | nil => exact .refl _
    | cons c rest ih =>
      have hc : (addOrdered before c).Perm (c :: before) := by
        unfold addOrdered
        split
        · exact .refl _
        · exact insertMark_perm c before
      exact (ih _).trans ((hc.append_left rest).trans List.perm_middle)
  exact (List.reverse_perm _).trans (by simpa using hadd text [])

theorem orderMarks_eq_self {text : Text} (h : ∀ c ∈ text, combiningClass c = 0) :
    orderMarks text = text := by
  have hadd (rest before : Text) (hrest : ∀ c ∈ rest, combiningClass c = 0) :
      rest.foldl addOrdered before = rest.reverse ++ before := by
    induction rest generalizing before with
    | nil => rfl
    | cons c rest ih =>
      obtain ⟨hc, hrest⟩ := List.forall_mem_cons.mp hrest
      simp [addOrdered, hc, ih _ hrest]
  simp [orderMarks, hadd text [] h]

/-- The composite of a letter and a mark. -/
def compositeOf? (letter mark : Char) : Option Char :=
  if mark.toNat < 0x300 then none
  else
    match Hangul.join? letter mark with
    | some c => some c
    | none =>
      let form := parts letter ++ [mark]
      (composites.find? fun entry => entry.2 == form).map fun entry => Char.ofNat entry.1

/-- A letter takes in the marks that follow it. Those it could not take are kept, backward, and keep
away any mark of the same class, or of a lower one. -/
def composeFrom (letter : Char) (kept : Text) : Text → Text
  | [] => letter :: kept.reverse
  | c :: rest =>
    let isKeptAway := kept.head?.any fun mark => combiningClass c ≤ combiningClass mark
    match if isKeptAway then none else compositeOf? letter c with
    | some composite => composeFrom composite kept rest
    | none =>
      if combiningClass c = 0 then letter :: (kept.reverse ++ composeFrom c [] rest)
      else composeFrom letter (c :: kept) rest

def compose : Text → Text
  | [] => []
  | c :: rest => composeFrom c [] rest

/-- The text in composed form. -/
def composed (text : Text) : Text := compose (orderMarks (text.flatMap parts))

theorem composeFrom_eq_self {letter : Char} {rest : Text} (h : ∀ c ∈ rest, c.toNat < 0x300) :
    composeFrom letter [] rest = letter :: rest := by
  induction rest generalizing letter with
  | nil => rfl
  | cons c rest ih =>
    obtain ⟨hc, hrest⟩ := List.forall_mem_cons.mp h
    simp [composeFrom, compositeOf?, hc, combiningClass_of_lt hc, ih hrest]

/-- Text that holds neither marks nor composites is composed as it stands. -/
theorem composed_eq_self {text : Text} (h : ∀ c ∈ text, c.toNat < 0xC0) : composed text = text := by
  have hparts : text.flatMap parts = text := by
    induction text with
    | nil => rfl
    | cons c rest ih =>
      obtain ⟨hc, hrest⟩ := List.forall_mem_cons.mp h
      rw [List.flatMap_cons, parts_of_lt hc, ih hrest, List.singleton_append]
  have hlow : ∀ c ∈ text, c.toNat < 0x300 := fun c hc => Nat.lt_trans (h c hc) (by decide)
  rw [composed, hparts, orderMarks_eq_self fun c hc => combiningClass_of_lt (hlow c hc)]
  cases text with
  | nil => rfl
  | cons c rest => exact composeFrom_eq_self (List.forall_mem_cons.mp hlow).2

example : Hangul.join? 'ᄀ' 'ᅡ' = some '가' ∧ Hangul.join? '가' 'ᆨ' = some '각' ∧
    Hangul.letters '각' = "각".toList := by
  decide +kernel

end ClassSkeleton.Text
