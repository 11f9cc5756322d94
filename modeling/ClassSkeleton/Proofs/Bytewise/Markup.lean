import ClassSkeleton.Proofs.Markup.Offset
import ClassSkeleton.Proofs.Markup.Plain
import ClassSkeleton.Proofs.Markup.Reflow

/-!
Marked-up text read by byte offsets. Every piece is cut out of its text between two offsets, and a
cut that is out of range, out of order or inside a character is an error. What is read is the same
as without offsets, so no cut ever fails.
-/
namespace ClassSkeleton

open Text Markup

namespace Bytewise

@[simp] theorem ok_bind {ε α β : Type} (value : α) (f : α → Except ε β) :
    (Except.ok value >>= f) = f value := rfl

/-- The text from a byte offset to its end. -/
def cutFrom (text : Text) (first : Nat) : Except ScanError Text := cut text first (width text)

def lastPlace? (c : Char) : Text → Option Nat
  | [] => none
  | d :: rest =>
    match lastPlace? c rest with
    | some place => some (d.utf8Size + place)
    | none => if d = c then some 0 else none

theorem cutFrom_width (front rest : Text) : cutFrom (front ++ rest) (width front) = .ok rest := by
  have hcut := cut_width front rest []
  rwa [List.append_nil] at hcut

theorem eq_of_cutFrom {text rest : Text} {first : Nat} (h : cutFrom text first = .ok rest) :
    ∃ front, text = front ++ rest ∧ width front = first := by
  obtain ⟨front, back, htext, hfirst, hlast⟩ := eq_of_cut h
  have hback : back = [] := by
    apply eq_nil_of_width
    rw [htext, ← List.append_assoc, width_append (front ++ rest)] at hlast
    omega
  exact ⟨front, by rw [htext, hback, List.append_nil], hfirst⟩

theorem cut_to_width (front rest : Text) : cut (front ++ rest) 0 (width front) = .ok front :=
  cut_width [] front rest

theorem locate_zero (text mark : Text) :
    locate text mark 0 = (breakAt? mark text).map fun parts => width parts.1 := by
  have hlocate := locate_width [] text mark
  simpa using hlocate

theorem infix_singleton_of_mem {c : Char} {text : Text} (h : c ∈ text) : [c] <:+: text := by
  obtain ⟨front, back, rfl⟩ := List.append_of_mem h
  exact ⟨front, back, by simp⟩

theorem breakAt?_char {c : Char} {text before after : Text}
    (h : breakAt? [c] text = some (before, after)) : text = before ++ c :: after ∧ c ∉ before := by
  refine ⟨by simpa using eq_of_breakAt? h, fun hmem => ?_⟩
  obtain ⟨front, back, rfl⟩ := List.append_of_mem hmem
  exact passes_of_breakAt? h front (c :: back) rfl (by simp) (by simp)

theorem breakAt?_char_eq_none {c : Char} {text : Text} (h : breakAt? [c] text = none) : c ∉ text :=
  fun hmem => (breakAt?_eq_none_iff (by simp) text).mp h (infix_singleton_of_mem hmem)

theorem breakAt?_cons_of_ne {c d : Char} (h : c ≠ d) (rest : Text) :
    breakAt? [c] (d :: rest) = (breakAt? [c] rest).map fun parts => (d :: parts.1, parts.2) := by
  rw [breakAt?, if_neg (by simpa using h)]

theorem lastPlace?_eq_none {c : Char} {text : Text} (h : c ∉ text) : lastPlace? c text = none := by
  induction text with
  | nil => rfl
  | cons d rest ih =>
    obtain ⟨hd, hrest⟩ := not_or.mp (List.mem_cons.not.mp h)
    rw [lastPlace?, ih hrest]
    exact if_neg (Ne.symm hd)

theorem lastPlace?_append {c : Char} {rest : Text} (front : Text) (h : c ∉ rest) :
    lastPlace? c (front ++ c :: rest) = some (width front) := by
  induction front with
  | nil => rw [List.nil_append, lastPlace?, lastPlace?_eq_none h, width_nil]; exact if_pos rfl
  | cons d front ih => rw [List.cons_append, lastPlace?, ih, width_cons]

theorem exists_last {c : Char} {text : Text} (h : c ∈ text) :
    ∃ front back, text = front ++ c :: back ∧ c ∉ back := by
  induction text with
  | nil => simp at h
  | cons d rest ih =>
    by_cases hrest : c ∈ rest
    · obtain ⟨front, back, rfl, hback⟩ := ih hrest
      exact ⟨d :: front, back, rfl, hback⟩
    · obtain rfl : c = d := (List.mem_cons.mp h).resolve_right hrest
      exact ⟨[], rest, rfl, hrest⟩

def stripTags (text : Text) : Except ScanError Text :=
  match locate text ['<'] 0 with
  | none => .ok text
  | some opened =>
    match cutFrom text opened with
    | .error e => .error e
    | .ok tag =>
      match locate tag ['>'] 0 with
      | none => .ok text
      | some closed =>
        match _ : cutFrom text (opened + closed + width ['>']) with
        | .error e => .error e
        | .ok rest => do
          let front ← cut text 0 opened
          return front ++ (← stripTags rest)
termination_by width text
decreasing_by
  have hwidth := width_cut ‹cutFrom text (opened + closed + width ['>']) = .ok rest›
  have : width ['>'] = 1 := rfl
  omega

def plainText (text : Text) : Except ScanError Text := do
  return trim (collapse (decodeEntities (← stripTags text)))

def reflow (html : Text) : Except ScanError Text := do
  return settle (decodeEntities (← stripTags html))

theorem stripTags_eq (text : Text) : stripTags text = .ok (Markup.stripTags text) := by
  induction hwidth : width text using Nat.strong_induction_on generalizing text with
  | _ bytes ih =>
    subst hwidth
    rw [stripTags, locate_zero]
    cases hopen : breakAt? ['<'] text with
    | none =>
      simp only [Option.map_none]
      rw [stripTags_eq_self (breakAt?_char_eq_none hopen)]
    | some parts =>
      obtain ⟨front, rest⟩ := parts
      obtain ⟨rfl, hfront⟩ := breakAt?_char hopen
      simp only [Option.map_some, cutFrom_width, locate_zero]
      rw [breakAt?_cons_of_ne (by decide)]
      cases hclose : breakAt? ['>'] rest with
      | none =>
        simp only [Option.map_none]
        rw [Markup.stripTags, stripFrom_append _ hfront, stripFrom, if_neg (by simp), if_pos rfl,
          if_neg (breakAt?_char_eq_none hclose)]
      | some parts =>
        obtain ⟨inside, after⟩ := parts
        obtain ⟨rfl, hinside⟩ := breakAt?_char hclose
        have hrest : cutFrom (front ++ '<' :: (inside ++ '>' :: after))
            (width front + width ('<' :: inside) + width ['>']) = .ok after := by
          have hcut := cutFrom_width (front ++ '<' :: inside ++ ['>']) after
          rw [width_append, width_append] at hcut
          simpa only [List.append_assoc, List.cons_append, List.nil_append] using hcut
        have hafter : Bytewise.stripTags after = .ok (Markup.stripTags after) := by
          apply ih _ _ after rfl
          have hpos := Char.utf8Size_pos '<'
          rw [width_append, width_cons]
          rw [width_append, width_cons]
          omega
        simp only [Option.map_some]
        split
        · rename_i e herror
          rw [hrest] at herror
          cases herror
        · rename_i tail htail
          rw [hrest] at htail
          cases htail
          rw [cut_to_width, hafter, Markup.stripTags, Markup.stripTags, stripFrom_append _ hfront,
            stripFrom, if_neg (by simp), if_pos rfl, if_pos (by simp), stripFrom_tag _ _ hinside]
          rfl

theorem plainText_eq (text : Text) : plainText text = .ok (Markup.plainText text) := by
  rw [plainText, stripTags_eq]
  rfl

theorem reflow_eq (html : Text) : reflow html = .ok (Markup.reflow html) := by
  rw [reflow, stripTags_eq]
  rfl

end Bytewise

end ClassSkeleton
