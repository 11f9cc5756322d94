import ClassSkeleton.Proofs.Tree.Edit

/-!
Work that is done again. What an act leaves at a place is what was there or is settled by the
directories, and an act makes and removes none of them; so an act that is repeated finds what it
has left, and so does an edit. An edit at rest stays there whatever is done elsewhere.
-/
namespace ClassSkeleton.Tree

namespace Act

variable {slots : List Place} {act first undo next : Act}

/-- On views with the same directories, a place is left alone on both or ends up the same. -/
def Firm (act : Act) : Prop :=
  ∀ view view' : View, (∀ place, view place = some .directory ↔ view' place = some .directory) →
    ∀ place, ((act view).2 place = view place ∧ (act view').2 place = view' place) ∨
      (act view).2 place = (act view').2 place

theorem firm_skip : skip.Firm := fun _ _ _ _ => .inl ⟨rfl, rfl⟩

theorem update_firm (view view' : View) (slot : Place) (entry : Option Entry) (place : Place) :
    (Function.update view slot entry place = view place ∧
        Function.update view' slot entry place = view' place) ∨
      Function.update view slot entry place = Function.update view' slot entry place := by
  by_cases hslot : place = slot
  · subst hslot
    exact .inr (by rw [Function.update_self, Function.update_self])
  · exact .inl ⟨Function.update_of_ne hslot _ _, Function.update_of_ne hslot _ _⟩

theorem firm_put (able : Bool) (slot : Place) (content : Content) :
    (put able slot content).Firm := by
  intro view view' hdirs place
  unfold put
  simp only [ne_eq, hdirs slot]
  split
  · exact update_firm view view' slot _ place
  · exact .inl ⟨rfl, rfl⟩

theorem firm_clear (slot : Place) : (clear slot).Firm := by
  intro view view' hdirs place
  unfold clear
  simp only [hdirs slot]
  split
  · exact .inl ⟨rfl, rfl⟩
  · exact update_firm view view' slot none place

theorem firm_move (able : Bool) (source target : Place) (content : Content) :
    (move able source target content).Firm := by
  intro view view' hdirs place
  unfold move
  simp only [ne_eq, hdirs source, hdirs target]
  split
  · by_cases htarget : place = target
    · subst htarget
      exact .inr (by simp only [Function.update_self])
    · simp only [Function.update_of_ne htarget]
      exact update_firm view view' source none place
  · exact firm_clear source view view' hdirs place

theorem firm_after (hfirst : first.Firm) (hnext : next.Firm) (hlocal : first.IsLocal slots)
    {view view' : View}
    (hdirs : ∀ place, view place = some .directory ↔ view' place = some .directory)
    (place : Place) :
    ((next (first view).2).2 place = view place ∧
        (next (first view').2).2 place = view' place) ∨
      (next (first view).2).2 place = (next (first view').2).2 place := by
  have hthen : ∀ place, (first view).2 place = some .directory ↔
      (first view').2 place = some .directory := fun place => by
    rw [hlocal.keeps, hlocal.keeps, hdirs place]
  rcases hnext _ _ hthen place with ⟨hkept, hkept'⟩ | hsame
  · rw [hkept, hkept']
    exact hfirst view view' hdirs place
  · exact .inr hsame

theorem firm_andThen (hfirst : first.Firm) (hundo : undo.Firm) (hnext : next.Firm)
    (hlocal : first.IsLocal slots) : (andThen first undo next).Firm := by
  intro view view' hdirs place
  have hsame : (first view).1 = (first view').1 :=
    hlocal.steady view view' fun place _ => hdirs place
  unfold andThen
  rw [hsame]
  split
  · exact firm_after hfirst hnext hlocal hdirs place
  · exact firm_after hfirst hundo hlocal hdirs place

/-- A repeated act ends as before and changes nothing. -/
theorem again (hlocal : act.IsLocal slots) (hfirm : act.Firm) (view : View) :
    act (act view).2 = act view := by
  have hdirs : ∀ place, view place = some .directory ↔ (act view).2 place = some .directory :=
    fun place => (hlocal.keeps view place).symm
  refine Prod.ext (hlocal.steady _ _ fun place _ => (hdirs place).symm) ?_
  funext place
  rcases hfirm view _ hdirs place with ⟨-, hkept⟩ | hsame
  · exact hkept
  · exact hsame.symm

end Act

namespace Edit

variable {edit first second : Edit} {view : View} {place : Place}

theorem spares_self (edit : Edit) (view : View) : Spares edit edit view where
  start hstart _ := hstart
  slots _ _ hground := .inr hground

theorem paved_run_self (edit : Edit) (view : View) :
    edit.paved (edit.run view).2 = (edit.run view).2 := by
  funext place
  rcases paved_cases edit (edit.run view).2 place with hp | ⟨-, hnone, hmem⟩
  · exact hp
  · rw [covered_run (spares_self edit view)] at hmem
    have hdir : edit.paved view place = some .directory := by
      rcases paved_cases edit view place with hq | ⟨hq, -⟩
      · cases hentry : view place with
        | none => rw [paved, overlay, if_pos ⟨hmem, hentry⟩]
        | some entry =>
          cases entry with
          | directory => rw [hq, hentry]
          | file content =>
            have hfile := isFileAt_eq_false_of_covered hmem
            simp [isFileAt, hentry] at hfile
      · exact hq
    rw [(run_directory edit view place).mpr hdir] at hnone
    simp at hnone

/-- A repeated edit ends as before and changes nothing. -/
theorem run_again (hfirm : edit.act.Firm) (view : View) :
    edit.run (edit.run view).2 = edit.run view := by
  have hpaved := paved_run_self edit view
  by_cases harrives : edit.Arrives view
  · have hthen := (arrives_run (spares_self edit view)).mpr harrives
    rw [run_of_arrives hthen, hpaved, run_of_arrives harrives]
    exact Act.again edit.isLocal hfirm _
  · have hthen : ¬ edit.Arrives (edit.run view).2 := fun ha =>
      harrives ((arrives_run (spares_self edit view)).mp ha)
    rw [run_of_not_arrives hthen, hpaved, run_of_not_arrives harrives]

def Rests (edit : Edit) (view : View) : Prop := (edit.run view).2 = view

theorem rests_run (hfirm : edit.act.Firm) (view : View) : edit.Rests (edit.run view).2 :=
  congrArg Prod.snd (run_again hfirm view)

/-- An edit at rest stays there when another one is done that has no slot in common with it. -/
theorem Rests.run (h : first.Rests view) (hthere : Spares second first view)
    (hback : Spares first second view) (hdisjoint : ∀ slot ∈ first.slots, slot ∉ second.slots) :
    first.Rests (second.run view).2 := by
  rw [Rests, run_comm hthere hback hdisjoint, h]

theorem runAll_of_rests {edits : List Edit} (h : ∀ edit ∈ edits, edit.Rests view) :
    runAll edits view = view := by
  induction edits with
  | nil => rfl
  | cons edit edits ih =>
    rw [runAll_cons, h edit List.mem_cons_self]
    exact ih fun other hmem => h other (List.mem_cons_of_mem _ hmem)

end Edit

end ClassSkeleton.Tree
