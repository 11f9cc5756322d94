import ClassSkeleton.Proofs.Tree.Trail
import Mathlib.Logic.Function.Basic

/-!
Work on slots. A slot is a place where a file may be put, moved or taken away; work on slots
leaves every other place alone, never turns a slot into a directory or a directory into anything
else, and how it ends hangs on nothing but the slots that are directories.
-/
namespace ClassSkeleton

namespace Tree

/-- Work on a view: whether it went well, and what it left. -/
abbrev Act := View → Bool × View

/-- The work concerns the slots alone, and which of its slots are directories decides how it
ends. -/
structure Act.IsLocal (act : Act) (slots : List Place) : Prop where
  off : ∀ view place, place ∉ slots → (act view).2 place = view place
  reads : ∀ view view' : View, (∀ place ∈ slots, view place = view' place) →
    ∀ place ∈ slots, (act view).2 place = (act view').2 place
  keeps : ∀ view place, (act view).2 place = some .directory ↔ view place = some .directory
  steady : ∀ view view' : View,
    (∀ place ∈ slots, view place = some .directory ↔ view' place = some .directory) →
      (act view).1 = (act view').1

end Tree

namespace Tree.Act

variable {slots : List Place} {first undo next : Act}

def skip : Act := fun view => (true, view)

def put (able : Bool) (slot : Place) (content : Content) : Act := fun view =>
  if able = true ∧ view slot ≠ some .directory then
    (true, Function.update view slot (some (.file content)))
  else (false, view)

def clear (slot : Place) : Act := fun view =>
  (true, if view slot = some .directory then view else Function.update view slot none)

/-- A file with the content is moved from one slot to another, and lost if that fails. -/
def move (able : Bool) (source target : Place) (content : Content) : Act := fun view =>
  if able = true ∧ view source ≠ some .directory ∧ view target ≠ some .directory then
    (true, Function.update (Function.update view source none) target (some (.file content)))
  else (false, (clear source view).2)

/-- One work after another; if the first fails, something is undone instead. -/
def andThen (first undo next : Act) : Act := fun view =>
  if (first view).1 then next (first view).2 else (false, (undo (first view).2).2)

theorem put_done {able : Bool} {slot : Place} {content : Content} {view : View}
    (h : (put able slot content view).1 = true) :
    able = true ∧ (put able slot content view).2 =
      Function.update view slot (some (.file content)) := by
  unfold put at h ⊢
  split at h
  · rename_i hput
    exact ⟨hput.1, by rw [if_pos hput]⟩
  · simp at h

theorem move_done {able : Bool} {source target : Place} {content : Content} {view : View}
    (h : (move able source target content view).1 = true) :
    able = true ∧ (move able source target content view).2 =
      Function.update (Function.update view source none) target (some (.file content)) := by
  unfold move at h ⊢
  split at h
  · rename_i hmove
    exact ⟨hmove.1, by rw [if_pos hmove]⟩
  · simp at h

theorem andThen_of_true {view : View} (h : (first view).1 = true) :
    andThen first undo next view = next (first view).2 := if_pos h

theorem andThen_of_false {view : View} (h : (first view).1 = false) :
    andThen first undo next view = (false, (undo (first view).2).2) := if_neg (by simp [h])

theorem isLocal_skip (slots : List Place) : skip.IsLocal slots where
  off _ _ _ := rfl
  reads _ _ h := h
  keeps _ _ := Iff.rfl
  steady _ _ _ := rfl

theorem update_reads {view view' : View} (h : ∀ place ∈ slots, view place = view' place)
    (slot : Place) (entry : Option Entry) :
    ∀ place ∈ slots, Function.update view slot entry place =
      Function.update view' slot entry place := by
  intro place hplace
  by_cases hslot : place = slot
  · subst hslot
    simp
  · rw [Function.update_of_ne hslot, Function.update_of_ne hslot, h place hplace]

/-- Exchanging what is no directory for what is none makes and removes no directory. -/
theorem update_keeps {view : View} {slot : Place} {entry : Option Entry}
    (hslot : view slot ≠ some .directory) (hentry : entry ≠ some .directory) (place : Place) :
    Function.update view slot entry place = some .directory ↔ view place = some .directory := by
  by_cases hplace : place = slot
  · subst hplace
    simp [hslot, hentry]
  · rw [Function.update_of_ne hplace]

theorem isLocal_put (able : Bool) {slot : Place} (content : Content) (hslot : slot ∈ slots) :
    (put able slot content).IsLocal slots where
  off view place hplace := by
    unfold put
    split
    · exact Function.update_of_ne (fun he : place = slot => hplace (he ▸ hslot)) _ _
    · rfl
  reads view view' h := by
    unfold put
    simp only [h slot hslot]
    split
    · exact update_reads h slot _
    · exact h
  keeps view place := by
    unfold put
    split
    · rename_i hput
      exact update_keeps hput.2 (by simp) place
    · rfl
  steady view view' h := by
    unfold put
    simp only [ne_eq, h slot hslot]
    split <;> rfl

theorem isLocal_clear {slot : Place} (hslot : slot ∈ slots) : (clear slot).IsLocal slots where
  off view place hplace := by
    unfold clear
    simp only
    split
    · rfl
    · exact Function.update_of_ne (fun he : place = slot => hplace (he ▸ hslot)) _ _
  reads view view' h := by
    unfold clear
    simp only [h slot hslot]
    split
    · exact h
    · exact update_reads h slot _
  keeps view place := by
    unfold clear
    simp only
    split
    · rfl
    · rename_i hdir
      exact update_keeps hdir (by simp) place
  steady _ _ _ := rfl

theorem isLocal_move (able : Bool) {source target : Place} (content : Content)
    (hsource : source ∈ slots) (htarget : target ∈ slots) :
    (move able source target content).IsLocal slots where
  off view place hplace := by
    unfold move
    split
    · simp only
      rw [Function.update_of_ne (fun he : place = target => hplace (he ▸ htarget)),
        Function.update_of_ne (fun he : place = source => hplace (he ▸ hsource))]
    · exact (isLocal_clear hsource).off view place hplace
  reads view view' h := by
    unfold move
    simp only [h source hsource, h target htarget]
    split
    · exact update_reads (update_reads h source none) target _
    · exact (isLocal_clear hsource).reads view view' h
  keeps view place := by
    unfold move
    split
    · rename_i hmove
      have htargetDir : Function.update view source none target ≠ some .directory := by
        rw [ne_eq, update_keeps hmove.2.1 (by simp)]
        exact hmove.2.2
      rw [update_keeps htargetDir (by simp), update_keeps hmove.2.1 (by simp)]
    · exact (isLocal_clear hsource).keeps view place
  steady view view' h := by
    unfold move
    simp only [ne_eq, h source hsource, h target htarget]
    split <;> rfl

theorem isLocal_andThen (hfirst : first.IsLocal slots) (hundo : undo.IsLocal slots)
    (hnext : next.IsLocal slots) : (andThen first undo next).IsLocal slots where
  off view place hplace := by
    unfold andThen
    split
    · rw [hnext.off _ _ hplace, hfirst.off _ _ hplace]
    · simp only
      rw [hundo.off _ _ hplace, hfirst.off _ _ hplace]
  reads view view' h := by
    have hsame : (first view).1 = (first view').1 :=
      hfirst.steady view view' fun place hplace => by rw [h place hplace]
    unfold andThen
    rw [hsame]
    split
    · exact hnext.reads _ _ (hfirst.reads view view' h)
    · exact hundo.reads _ _ (hfirst.reads view view' h)
  keeps view place := by
    unfold andThen
    split
    · rw [hnext.keeps, hfirst.keeps]
    · simp only
      rw [hundo.keeps, hfirst.keeps]
  steady view view' h := by
    have hsame := hfirst.steady view view' h
    unfold andThen
    rw [hsame]
    split
    · refine hnext.steady _ _ fun place hplace => ?_
      rw [hfirst.keeps, hfirst.keeps, h place hplace]
    · rfl

/-- A file that stands somewhere after a slot has been given an entry was there, or is the entry. -/
theorem file_of_update {view : View} {slot place : Place} {entry : Option Entry} {content : Content}
    (h : Function.update view slot entry place = some (.file content)) :
    view place = some (.file content) ∨ entry = some (.file content) := by
  by_cases hplace : place = slot
  · subst hplace
    rw [Function.update_self] at h
    exact Or.inr h
  · rw [Function.update_of_ne hplace] at h
    exact Or.inl h

end Tree.Act

end ClassSkeleton
