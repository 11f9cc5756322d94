import ClassSkeleton.Proofs.Text.Occurrence
import ClassSkeleton.Skeleton
import Mathlib.Data.List.Forall2

/-!
When the generated names of two entities are the same. An identifier does not tell a dot from an
underscore, and an include guard does not tell the cases of a letter apart either; nothing else is
lost. So names without underscores have identifiers of their own, and guards of their own if they
differ in more than case.
-/
namespace ClassSkeleton

open Text

/-- Letters that an identifier does not tell apart. -/
def SameLetter (c d : Char) : Prop := c = d ∨ (c ∈ ['.', '_'] ∧ d ∈ ['.', '_'])

/-- Names that agree letter by letter, with a dot for an underscore or the other way round. -/
def Alike (name other : Text) : Prop := List.Forall₂ SameLetter name other

theorem sameLetter_iff {c d : Char} :
    SameLetter c d ↔ (if c = '.' then '_' else c) = (if d = '.' then '_' else d) := by
  by_cases hc : c = '.'
  · by_cases hd : d = '.'
    · simp [SameLetter, hc, hd]
    · simpa [SameLetter, hc, hd, Ne.symm hd] using eq_comm
  · by_cases hd : d = '.'
    · simp [SameLetter, hc, hd]
    · simp only [SameLetter, List.mem_cons, List.not_mem_nil, hc, hd, or_false, false_or, if_false]
      exact ⟨fun h => h.elim id fun h => h.1.trans h.2.symm, Or.inl⟩

theorem identifier_eq_iff {name other : Text} :
    identifier name = identifier other ↔ Alike name other := by
  have hsame : SameLetter = fun c d =>
      (if c = '.' then '_' else c) = (if d = '.' then '_' else d) := by
    funext c d
    exact propext sameLetter_iff
  unfold identifier Alike
  rw [hsame, ← List.forall₂_eq_eq_eq, List.forall₂_map_left_iff, List.forall₂_map_right_iff]

theorem Alike.eq {name other : Text} (h : Alike name other) (hname : '_' ∉ name)
    (hother : '_' ∉ other) : name = other := by
  induction h with
  | nil => rfl
  | @cons c d name other hletter _ ih =>
    obtain ⟨hc, hname⟩ := not_or.mp (List.mem_cons.not.mp hname)
    obtain ⟨hd, hother⟩ := not_or.mp (List.mem_cons.not.mp hother)
    have hsame : c = d := by
      rcases hletter with h | ⟨h, h'⟩
      · exact h
      · have hdot : c = '.' := by simpa [Ne.symm hc] using h
        have hdot' : d = '.' := by simpa [Ne.symm hd] using h'
        rw [hdot, hdot']
    rw [hsame, ih hname hother]

theorem Alike.refl (name : Text) : Alike name name := List.forall₂_same.mpr fun _ _ => Or.inl rfl

namespace Text

def separators : Text := ['.', '_']

/-- A code that belongs to no character stands for the null character. -/
theorem toNat_ofNat_cases (code : Nat) :
    (Char.ofNat code).toNat = code ∨ (Char.ofNat code).toNat = 0 := by
  by_cases hvalid : code.isValidChar
  · exact Or.inl (by rw [Char.ofNat, dif_pos hvalid]; rfl)
  · exact Or.inr (by rw [Char.ofNat, dif_neg hvalid]; rfl)

/-- No other character has a separator in its upper case. -/
theorem eq_of_mem_upperChar {c d : Char} (hd : d ∈ separators) (h : d ∈ upperChar c) : c = d := by
  have hascii : ∀ d ∈ separators, ∀ code < 0x80, d = (Char.ofNat code).toUpper →
      Char.ofNat code = d := forall_mem_of_all (by decide +kernel)
  have hexpansions : ∀ d ∈ separators, ∀ entry ∈ caseExpansions, d ∉ entry.2.map Char.ofNat :=
    forall_mem_of_all (by decide +kernel)
  have hruns : ∀ d ∈ separators, ∀ run ∈ caseRuns ++ caseVariants,
      0x60 + run.down ≤ run.first + run.up ∨
        (run.first = run.last ∧ d ≠ Char.ofNat (run.first + run.up - run.down)) :=
    forall_mem_of_all (by decide +kernel)
  have hcode : ∀ d ∈ separators, d.toNat < 0x60 ∧ d.toNat ≠ 0 := forall_mem_of_all (by decide)
  unfold upperChar at h
  simp only at h
  split at h
  · rename_i hsmall
    have hself := hascii d hd c.toNat hsmall
    rw [Char.ofNat_toNat] at hself
    exact hself (List.mem_singleton.mp h)
  split at h
  · rename_i entry hfind
    exact absurd h (hexpansions d hd entry (List.mem_of_find?_eq_some hfind))
  split at h
  · rename_i run hfind
    have hcovers : run.first ≤ c.toNat ∧ c.toNat ≤ run.last := by
      have := List.find?_some hfind
      simp only [CaseRun.covers, Bool.and_eq_true, decide_eq_true_eq] at this
      exact this.1
    have hletter := List.mem_singleton.mp h
    rcases hruns d hd run (List.mem_of_find?_eq_some hfind) with hfar | ⟨hone, hother⟩
    · obtain ⟨hlow, hnull⟩ := hcode d hd
      rcases toNat_ofNat_cases (c.toNat + run.up - run.down) with hvalue | hvalue
      · rw [hletter] at hlow
        omega
      · rw [hletter] at hnull
        exact absurd hvalue hnull
    · rw [show c.toNat = run.first by omega] at hletter
      exact absurd hletter hother
  · exact (List.mem_singleton.mp h).symm

theorem not_mem_upper {name : Text} {d : Char} (hd : d ∈ separators) (h : d ∉ name) :
    d ∉ upper name := by
  intro hmem
  obtain ⟨c, hc, hupper⟩ := List.mem_flatMap.mp hmem
  exact h (eq_of_mem_upperChar hd hupper ▸ hc)

end Text

theorem upper_identifier (name : Text) : upper (identifier name) = identifier (upper name) := by
  induction name with
  | nil => rfl
  | cons c name ih =>
    have hhead : upperChar (if c = '.' then '_' else c) = identifier (upperChar c) := by
      by_cases hc : c = '.'
      · subst hc
        decide
      · rw [if_neg hc, identifier, List.map_congr_left, List.map_id]
        intro d hd
        have hdot : d ≠ '.' := fun hdot =>
          hc (hdot ▸ eq_of_mem_upperChar (by simp [hdot, separators]) hd)
        rw [if_neg hdot, id]
    have hcons : ∀ front back : Text,
        identifier (front ++ back) = identifier front ++ identifier back :=
      fun _ _ => List.map_append
    rw [show identifier (c :: name) = (if c = '.' then '_' else c) :: identifier name from rfl]
    unfold upper at ih ⊢
    rw [List.flatMap_cons, List.flatMap_cons, hcons, hhead, ih]

namespace Skeleton

theorem includeGuard_eq_iff {entity other : Entity} :
    includeGuard entity = includeGuard other ↔ Alike (upper entity.name) (upper other.name) := by
  rw [includeGuard, includeGuard, List.append_cancel_right_eq, Entity.ident, Entity.ident,
    upper_identifier, upper_identifier, identifier_eq_iff]

/-- Two entities share an identifier, or an include guard, only if their names differ in nothing
but dots and underscores, for the guard also in case. Names without underscores have identifiers of
their own, and guards of their own unless they differ in case alone. -/
theorem generated_names_eq_iff (entity other : Entity) :
    (entity.ident = other.ident ↔ Alike entity.name other.name) ∧
      (includeGuard entity = includeGuard other ↔
        Alike (upper entity.name) (upper other.name)) ∧
      ('_' ∉ entity.name → '_' ∉ other.name →
        (entity.ident = other.ident ↔ entity.name = other.name) ∧
          (includeGuard entity = includeGuard other ↔ upper entity.name = upper other.name)) := by
  refine ⟨identifier_eq_iff, includeGuard_eq_iff, fun hname hother => ⟨?_, ?_⟩⟩
  · rw [Entity.ident, Entity.ident, identifier_eq_iff]
    exact ⟨fun h => h.eq hname hother, fun h => h ▸ Alike.refl _⟩
  · have hupper := not_mem_upper (d := '_') (by decide) hname
    have hupper' := not_mem_upper (d := '_') (by decide) hother
    rw [includeGuard_eq_iff]
    exact ⟨fun h => h.eq hupper hupper', fun h => h ▸ Alike.refl _⟩

theorem generated_names_differ_map_list :
    let map : Entity := ⟨"java.util.Map".toList, "u".toList, by decide⟩
    let list : Entity := ⟨"java.util.List".toList, "u".toList, by decide⟩
    map.ident ≠ list.ident ∧ includeGuard map ≠ includeGuard list := by
  intro map list
  have hnames := generated_names_eq_iff map list
  obtain ⟨hident, hguard⟩ := hnames.2.2 (by decide) (by decide)
  exact ⟨hident.not.mpr (by decide), hguard.not.mpr (by decide)⟩

/-- A nested type shares both names with a type whose own name has an underscore there. -/
theorem not_generated_names_injective : ¬ ∀ entity other : Entity,
    '/' ∉ entity.name → '/' ∉ other.name → entity.name ≠ other.name →
      entity.ident ≠ other.ident ∧ includeGuard entity ≠ includeGuard other := by
  intro hclaim
  have hnested := hclaim ⟨"p.Map.Entry".toList, "u".toList, by decide⟩
    ⟨"p.Map_Entry".toList, "u".toList, by decide⟩ (by decide) (by decide) (by decide)
  exact hnested.1 (by decide)

end Skeleton

end ClassSkeleton
