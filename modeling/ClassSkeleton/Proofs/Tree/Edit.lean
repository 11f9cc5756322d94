import ClassSkeleton.Proofs.Tree.Act
import ClassSkeleton.Proofs.Tree.Paving

/-!
An edit makes its way to a directory and then works on a few slots in it. Two edits that keep
out of each other's way and have no slot in common can be done in either order, and each of them
ends as it would alone.
-/
namespace ClassSkeleton.Tree

/-- A way, and work on slots at its end. An edit that is not able does nothing at all. -/
structure Edit where
  able : Bool
  start : Place
  names : List Text
  slots : List Place
  act : Act
  isLocal : act.IsLocal slots

namespace Edit

/-- The places that the way of the edit leads over. -/
def ground (edit : Edit) : List Place := edit.start :: trail edit.start edit.names

/-- The places that become directories, unless they are, when the way is made. -/
def covered (edit : Edit) (view : View) : List Place :=
  if edit.able = true ∧ view edit.start = some .directory then
    reach view edit.start edit.names
  else []

/-- The view with the way of the edit made as far as it can be. -/
def paved (edit : Edit) (view : View) : View := overlay (edit.covered view) view

/-- The edit gets to its slots. -/
def Arrives (edit : Edit) (view : View) : Prop :=
  edit.able = true ∧ Passable view edit.start edit.names

instance (edit : Edit) (view : View) : Decidable (edit.Arrives view) :=
  inferInstanceAs (Decidable (_ ∧ _))

def run (edit : Edit) (view : View) : Bool × View :=
  if edit.Arrives view then edit.act (edit.paved view) else (false, edit.paved view)

/-- The first edit puts nothing in the way of the second. -/
structure Spares (first second : Edit) (view : View) : Prop where
  start : view first.start = some .directory → second.start ∈ trail first.start first.names →
    view second.start = some .directory
  slots : ∀ place ∈ first.slots, place ∈ second.ground →
    view place = some .directory ∨ place ∈ first.ground

variable {edit first second : Edit} {view : View} {place : Place}

theorem run_of_arrives (h : edit.Arrives view) : edit.run view = edit.act (edit.paved view) :=
  if_pos h

theorem run_of_not_arrives (h : ¬ edit.Arrives view) : edit.run view = (false, edit.paved view) :=
  if_neg h

theorem paved_of_able (h : edit.able = true) (view : View) :
    edit.paved view = pave view edit.start edit.names := by
  funext place
  unfold paved overlay pave covered
  by_cases hstart : view edit.start = some .directory
  · simp only [h, hstart, and_self, if_true, true_and]
  · simp [hstart]

theorem paved_of_not_able (h : edit.able = false) (view : View) : edit.paved view = view := by
  funext place
  simp [paved, overlay, covered, h]

theorem run_of_not_able (h : edit.able = false) (view : View) : edit.run view = (false, view) := by
  have hnot : ¬ edit.Arrives view := fun ha => Bool.false_ne_true (h ▸ ha.1)
  rw [run_of_not_arrives hnot, paved_of_not_able h]

theorem mem_ground_of_covered (h : place ∈ edit.covered view) :
    view edit.start = some .directory ∧ place ∈ trail edit.start edit.names := by
  unfold covered at h
  split at h
  · rename_i hstart
    exact ⟨hstart.2, mem_trail_of_mem_reach h⟩
  · simp at h

theorem isFileAt_eq_false_of_covered (h : place ∈ edit.covered view) :
    isFileAt view place = false := by
  unfold covered at h
  split at h
  · exact not_isFileAt_of_mem_reach h
  · simp at h

theorem paved_cases (edit : Edit) (view : View) (place : Place) :
    edit.paved view place = view place ∨
      (edit.paved view place = some .directory ∧ view place = none ∧
        place ∈ edit.covered view) := by
  unfold paved overlay
  split
  · rename_i h
    exact Or.inr ⟨rfl, h.2, h.1⟩
  · exact Or.inl rfl

theorem paved_keeps (h : view place = some .directory) :
    edit.paved view place = some .directory := by
  rcases paved_cases edit view place with hp | ⟨hp, -⟩
  · rw [hp, h]
  · exact hp

theorem isFileAt_paved (edit : Edit) (view : View) (place : Place) :
    isFileAt (edit.paved view) place = isFileAt view place := by
  rcases paved_cases edit view place with hp | ⟨hp, hnone, -⟩
  · simp only [isFileAt, hp]
  · rw [isFileAt_eq_false_of_directory hp, isFileAt_eq_false_of_none hnone]

theorem paved_file {content : Content} :
    edit.paved view place = some (.file content) ↔ view place = some (.file content) := by
  rcases paved_cases edit view place with hp | ⟨hp, hnone, -⟩
  · rw [hp]
  · simp [hp, hnone]

theorem Arrives.paved_ground (h : edit.Arrives view) (hplace : place ∈ edit.ground) :
    edit.paved view place = some .directory := by
  rw [paved_of_able h.1]
  exact h.2.opens_pave place hplace

theorem run_off (h : place ∉ edit.slots) : (edit.run view).2 place = edit.paved view place := by
  unfold run
  split
  · exact edit.isLocal.off _ place h
  · rfl

theorem run_keeps (h : view place = some .directory) :
    (edit.run view).2 place = some .directory := by
  unfold run
  split
  · exact (edit.isLocal.keeps _ place).mpr (paved_keeps h)
  · exact paved_keeps h

/-- A directory after an edit was one before or has been made on the way. -/
theorem run_directory (edit : Edit) (view : View) (place : Place) :
    (edit.run view).2 place = some .directory ↔ edit.paved view place = some .directory := by
  unfold run
  split
  · exact edit.isLocal.keeps _ place
  · rfl

/-- An edit makes and removes files at its slots alone, and not even at those on its own way. -/
theorem isFileAt_run (h : place ∈ edit.slots → view place = some .directory ∨ place ∈ edit.ground) :
    isFileAt (edit.run view).2 place = isFileAt view place := by
  by_cases hslot : place ∈ edit.slots
  · rcases h hslot with hdir | hground
    · rw [isFileAt_eq_false_of_directory hdir, isFileAt_eq_false_of_directory (run_keeps hdir)]
    · by_cases harrives : edit.Arrives view
      · have hpaved := harrives.paved_ground hground
        rw [isFileAt_eq_false_of_directory ((run_directory edit view place).mpr hpaved),
          ← isFileAt_paved edit, isFileAt_eq_false_of_directory hpaved]
      · rw [run, if_neg harrives, isFileAt_paved]
  · have hoff : isFileAt (edit.run view).2 place = isFileAt (edit.paved view) place := by
      simp only [isFileAt, run_off hslot]
    rw [hoff, isFileAt_paved]

section After

/-! What an edit finds after another one that spares it. -/

variable (h : Spares second first view)

include h

theorem reach_run : reach (second.run view).2 first.start first.names =
    reach view first.start first.names :=
  reach_congr fun place hplace => isFileAt_run fun hslot =>
    h.slots place hslot (List.mem_cons_of_mem _ hplace)

theorem start_run :
    (second.run view).2 first.start = some .directory ↔ view first.start = some .directory := by
  refine ⟨fun hrun => ?_, run_keeps⟩
  rw [run_directory] at hrun
  rcases paved_cases second view first.start with hp | ⟨-, -, hmem⟩
  · exact hp ▸ hrun
  · obtain ⟨hstart, htrail⟩ := mem_ground_of_covered hmem
    exact h.start hstart htrail

theorem arrives_run : first.Arrives (second.run view).2 ↔ first.Arrives view := by
  rw [Arrives, Arrives, Passable, Passable, reach_run h, start_run h]

theorem covered_run : first.covered (second.run view).2 = first.covered view := by
  simp only [covered, start_run h, reach_run h]

theorem paved_run_directory (hback : Spares first second view) (harrives : first.Arrives view)
    (hslot : place ∈ first.slots) :
    first.paved (second.run view).2 place = some .directory ↔
      first.paved view place = some .directory := by
  have hthen := (arrives_run h).mpr harrives
  constructor
  · intro hdir
    rcases paved_cases first (second.run view).2 place with hp | ⟨-, -, hmem⟩
    · rw [hp, run_directory] at hdir
      rcases paved_cases second view place with hq | ⟨-, hnone, hmem⟩
      · exact paved_keeps (hq ▸ hdir)
      · rcases hback.slots place hslot (List.mem_cons_of_mem _ (mem_ground_of_covered hmem).2) with
          hd | hground
        · rw [hnone] at hd
          simp at hd
        · exact harrives.paved_ground hground
    · exact harrives.paved_ground (List.mem_cons_of_mem _ (mem_ground_of_covered hmem).2)
  · intro hdir
    rcases paved_cases first view place with hp | ⟨-, -, hmem⟩
    · exact paved_keeps (run_keeps (hp ▸ hdir))
    · exact hthen.paved_ground (List.mem_cons_of_mem _ (mem_ground_of_covered hmem).2)

/-- An edit ends after another one as it would have ended before. -/
theorem run_fst (hback : Spares first second view) :
    (first.run (second.run view).2).1 = (first.run view).1 := by
  by_cases harrives : first.Arrives view
  · rw [run_of_arrives harrives, run_of_arrives ((arrives_run h).mpr harrives)]
    exact first.isLocal.steady _ _ fun place hslot => paved_run_directory h hback harrives hslot
  · rw [run_of_not_arrives harrives, run_of_not_arrives fun ha => harrives ((arrives_run h).mp ha)]

theorem paved_run_slot (hback : Spares first second view) (harrives : first.Arrives view)
    (hslot : place ∈ first.slots) (hother : place ∉ second.slots) :
    first.paved (second.run view).2 place = first.paved view place := by
  rcases paved_cases second view place with hp | ⟨-, hnone, hmem⟩
  · have hsame : (second.run view).2 place = view place := by rw [run_off hother, hp]
    simp only [paved, overlay, covered_run h, hsame]
  · have hground : place ∈ first.ground := by
      rcases hback.slots place hslot (List.mem_cons_of_mem _ (mem_ground_of_covered hmem).2) with
        hd | hground
      · rw [hnone] at hd
        simp at hd
      · exact hground
    rw [harrives.paved_ground hground, ((arrives_run h).mpr harrives).paved_ground hground]

theorem paved_comm (hback : Spares first second view)
    (hsecond : (second.run view).2 place = second.paved view place)
    (hfirst : (first.run view).2 place = first.paved view place) :
    first.paved (second.run view).2 place = second.paved (first.run view).2 place := by
  rw [paved, paved, covered_run h, covered_run hback, overlay, overlay, hsecond, hfirst]
  by_cases hnone : view place = none
  · by_cases hone : place ∈ first.covered view
    · by_cases htwo : place ∈ second.covered view
      · simp [paved, overlay, hnone, hone, htwo]
      · simp [paved, overlay, hnone, hone, htwo]
    · by_cases htwo : place ∈ second.covered view
      · simp [paved, overlay, hnone, hone, htwo]
      · simp [paved, overlay, hnone, hone, htwo]
  · simp [paved, overlay, hnone]

/-- Away from the slots of the second edit, the order of the two does not matter. -/
theorem run_comm_at (hback : Spares first second view)
    (hdisjoint : ∀ slot ∈ first.slots, slot ∉ second.slots) (hother : place ∉ second.slots) :
    (first.run (second.run view).2).2 place = (second.run (first.run view).2).2 place := by
  rw [run_off hother]
  by_cases hgets : first.Arrives view ∧ place ∈ first.slots
  · obtain ⟨harrives, hslot⟩ := hgets
    have hwork : (first.run (second.run view).2).2 place = (first.run view).2 place := by
      rw [run_of_arrives harrives, run_of_arrives ((arrives_run h).mpr harrives)]
      refine first.isLocal.reads _ _ (fun slot hs => ?_) place hslot
      exact paved_run_slot h hback harrives hs (hdisjoint slot hs)
    rw [hwork]
    -- The way of the second edit adds nothing here: on it, the slot was a directory all along.
    rcases paved_cases second (first.run view).2 place with hp | ⟨-, hnone, hmem⟩
    · exact hp.symm
    · rw [covered_run hback] at hmem
      have hdir : (first.run view).2 place = some .directory := by
        rcases hback.slots place hslot (List.mem_cons_of_mem _ (mem_ground_of_covered hmem).2) with
          hd | hground
        · exact run_keeps hd
        · exact (run_directory first view place).mpr (harrives.paved_ground hground)
      rw [hnone] at hdir
      simp at hdir
  · have hfirst : ∀ other : View, (first.Arrives other ↔ first.Arrives view) →
        (first.run other).2 place = first.paved other place := by
      intro other hsame
      by_cases hslot : place ∈ first.slots
      · rw [run_of_not_arrives fun ha => hgets ⟨hsame.mp ha, hslot⟩]
      · exact run_off hslot
    rw [hfirst _ (arrives_run h)]
    exact paved_comm h hback (run_off hother) (hfirst view Iff.rfl)

end After

/-- Edits without a common slot that spare each other can be done in either order. -/
theorem run_comm (h : Spares second first view) (hback : Spares first second view)
    (hdisjoint : ∀ slot ∈ first.slots, slot ∉ second.slots) :
    (first.run (second.run view).2).2 = (second.run (first.run view).2).2 := by
  funext place
  by_cases hother : place ∈ second.slots
  · have hslot : place ∉ first.slots := fun hs => hdisjoint place hs hother
    exact (run_comm_at hback h (fun slot hs hf => hdisjoint slot hf hs) hslot).symm
  · exact run_comm_at h hback hdisjoint hother

theorem run_file (hslot : place ∉ edit.slots) (hfile : isFileAt view place = true) :
    (edit.run view).2 place = view place := by
  rw [run_off hslot]
  rcases paved_cases edit view place with hp | ⟨-, hnone, -⟩
  · exact hp
  · rw [isFileAt_eq_false_of_none hnone] at hfile
    simp at hfile

section List

/-! Edits one after the other. -/

def runAll (edits : List Edit) (view : View) : View :=
  edits.foldl (fun view edit => (edit.run view).2) view

variable {edits others : List Edit} {start : Place} {names : List Text} {work : Edit}

theorem runAll_cons (edit : Edit) (edits : List Edit) (view : View) :
    runAll (edit :: edits) view = runAll edits (edit.run view).2 := rfl

theorem runAll_concat (edits : List Edit) (edit : Edit) (view : View) :
    runAll (edits ++ [edit]) view = (edit.run (runAll edits view)).2 := by
  simp [runAll]

theorem opens_run (edit : Edit) (h : Opens view start names) :
    Opens (edit.run view).2 start names := h.mono fun _ => run_keeps

theorem opens_runAll (edits : List Edit) (h : Opens view start names) :
    Opens (runAll edits view) start names := by
  induction edits generalizing view with
  | nil => exact h
  | cons edit edits ih => exact ih (opens_run edit h)

theorem isFileAt_runAll (h : ∀ edit ∈ edits, place ∉ edit.slots) :
    isFileAt (runAll edits view) place = isFileAt view place := by
  induction edits generalizing view with
  | nil => rfl
  | cons edit edits ih =>
    rw [runAll_cons, ih fun other ho => h other (List.mem_cons_of_mem _ ho)]
    exact isFileAt_run fun hslot => absurd hslot (h edit List.mem_cons_self)

theorem runAll_file (h : ∀ edit ∈ edits, place ∉ edit.slots) (hfile : isFileAt view place = true) :
    runAll edits view place = view place := by
  induction edits generalizing view with
  | nil => rfl
  | cons edit edits ih =>
    have hedit := run_file (h edit List.mem_cons_self) hfile
    have hstill : isFileAt (edit.run view).2 place = true := by
      rw [isFileAt, hedit]
      exact hfile
    rw [runAll_cons, ih (fun other ho => h other (List.mem_cons_of_mem _ ho)) hstill, hedit]

/-- Work ends after a list of edits as it would have ended before. The edits and the work have to
spare each other wherever a certain way is open. -/
theorem run_runAll_fst (hopen : edits ≠ [] → Opens view start names)
    (hspares : ∀ edit ∈ edits, ∀ other : View, Opens other start names →
      Spares edit work other ∧ Spares work edit other) :
    (work.run (runAll edits view)).1 = (work.run view).1 := by
  induction edits generalizing view with
  | nil => rfl
  | cons edit edits ih =>
    have hview := hopen (List.cons_ne_nil _ _)
    obtain ⟨hthere, hback⟩ := hspares edit List.mem_cons_self view hview
    rw [runAll_cons, ih (fun _ => opens_run edit hview) fun other ho =>
      hspares other (List.mem_cons_of_mem _ ho)]
    exact run_fst hthere hback

theorem run_runAll_snd (hopen : edits ≠ [] → Opens view start names)
    (hspares : ∀ edit ∈ edits, ∀ other : View, Opens other start names →
      Spares edit work other ∧ Spares work edit other)
    (hdisjoint : ∀ edit ∈ edits, ∀ slot ∈ work.slots, slot ∉ edit.slots) :
    (work.run (runAll edits view)).2 = runAll edits (work.run view).2 := by
  induction edits generalizing view with
  | nil => rfl
  | cons edit edits ih =>
    have hview := hopen (List.cons_ne_nil _ _)
    obtain ⟨hthere, hback⟩ := hspares edit List.mem_cons_self view hview
    calc (work.run (runAll edits (edit.run view).2)).2
        = runAll edits (work.run (edit.run view).2).2 :=
          ih (fun _ => opens_run edit hview)
            (fun other ho => hspares other (List.mem_cons_of_mem _ ho))
            fun other ho => hdisjoint other (List.mem_cons_of_mem _ ho)
      _ = runAll edits (edit.run (work.run view).2).2 := by
          rw [run_comm hthere hback (hdisjoint edit List.mem_cons_self)]

/-- The order of edits that can be exchanged two by two does not matter. -/
theorem runAll_perm (h : edits.Perm others)
    (hcomm : ∀ first ∈ edits, ∀ second ∈ edits, ∀ view,
      (second.run (first.run view).2).2 = (first.run (second.run view).2).2) (view : View) :
    runAll edits view = runAll others view :=
  h.foldl_eq' (fun first hfirst second hsecond => hcomm first hfirst second hsecond) view

end List

end Edit

end ClassSkeleton.Tree
