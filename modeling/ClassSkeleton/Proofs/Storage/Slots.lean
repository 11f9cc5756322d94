import ClassSkeleton.Proofs.Storage.Parent
import ClassSkeleton.Proofs.Tree.Edit

/-!
Writing files as edits. A file is staged in one slot and committed from there to another, so a
page takes two slots and a skeleton four, all of them in one directory. Each script on disk does
to its tree what the edit does to the view of it.
-/
namespace ClassSkeleton

open ClassSkeleton.Tree

namespace Storage

def partName (name : Text) : Text := name ++ ".part".toList

/-- What a script with a result has done to a tree, against what an act does to its view. -/
structure Effect {α : Type} (result : α) (tree : Tree) (ran : Except IoCause α × Tree)
    (done : Bool × View) : Prop where
  home : ran.2.home = tree.home
  view : ran.2.get? = done.2
  ok : done.1 = true → ran.1 = .ok result
  error : done.1 = false → ∃ e, ran.1 = .error e

theorem Effect.toBool {α : Type} {result : α} {tree : Tree} {ran : Except IoCause α × Tree}
    {done : Bool × View} (h : Effect result tree ran done) : ran.1.toBool = done.1 := by
  cases hdone : done.1 with
  | true => rw [h.ok hdone, Except.toBool]
  | false =>
    obtain ⟨e, he⟩ := h.error hdone
    rw [he, Except.toBool]

/-- A script that goes on where another has ended. If the first act fails, something is undone. -/
theorem Effect.andThen {α β : Type} {middle : α} {result : β} {tree : Tree}
    {ran : Except IoCause α × Tree} {whole : Except IoCause β × Tree} {view : View}
    {first undo next : Act} (h : Effect middle tree ran (first view))
    (hundo : ∀ e, ran.1 = .error e → (first view).1 = false →
      whole.1 = .error e ∧ whole.2.home = ran.2.home ∧ whole.2.get? = (undo ran.2.get?).2)
    (hnext : ran.1 = .ok middle → (first view).1 = true →
      Effect result ran.2 whole (next ran.2.get?)) :
    Effect result tree whole (Act.andThen first undo next view) := by
  cases hdone : (first view).1 with
  | false =>
    obtain ⟨e, he⟩ := h.error hdone
    obtain ⟨hfailed, hhome, hview⟩ := hundo e he hdone
    rw [Act.andThen_of_false hdone]
    refine ⟨hhome.trans h.home, ?_, by simp, fun _ => ⟨e, hfailed⟩⟩
    rw [hview, h.view]
  | true =>
    have hwhole := hnext (h.ok hdone) hdone
    rw [h.view] at hwhole
    rw [Act.andThen_of_true hdone]
    exact ⟨hwhole.home.trans h.home, hwhole.view, hwhole.ok, hwhole.error⟩

theorem Effect.opens {α : Type} {result : α} {tree : Tree} {ran : Except IoCause α × Tree}
    {view : View} {act : Act} {slots : List Place} (h : Effect result tree ran (act view))
    (hlocal : act.IsLocal slots) {absolute : Bool} {names : List Text}
    (hopen : Opens view (Path.origin tree.home absolute) names) :
    Opens ran.2.get? (Path.origin ran.2.home absolute) names := by
  rw [h.home, h.view]
  exact hopen.mono fun place hplace => (hlocal.keeps view place).mpr hplace

def editAt (home : Place) (absolute : Bool) (above : List Text) {slots : List Place} {act : Act}
    (isLocal : act.IsLocal slots) : Edit :=
  ⟨Path.isGrounded absolute above, Path.origin home absolute, Path.named above, slots, act, isLocal⟩

variable {path : Path} {above : List Text} {name : Text} {tree : Tree}

theorem partName_ne_nil (name : Text) : partName name ≠ [] := by
  simp [partName]

theorem isDots_partName (name : Text) : isDots (partName name) = false := by
  have hlast : (partName name).getLast? = some 't' := by
    rw [partName, List.getLast?_append]
    rfl
  simp only [isDots, Bool.or_eq_false_iff, beq_eq_false_iff_ne]
  constructor <;> (intro hdots; rw [hdots] at hlast; simp at hlast)

theorem partOf_eq (h : path.Ends above name) : partOf path = path.withFileName (partName name) := by
  rw [partOf, h.fileName?, partName]
  rfl

theorem leadsTo_partOf (h : path.Ends above name) : (partOf path).LeadsTo path.isAbsolute
    (Path.named (Path.settle above)) (partName name) := by
  rw [partOf_eq h]
  refine h.leadsTo_withFileName ?_ (isDots_partName name) (partName_ne_nil name)
  have hname := h.slashless name List.mem_cons_self
  simp [partName, hname]

theorem spot_partOf (home : Place) (absolute : Bool) (above : List Text) (name : Text) :
    spot home absolute (Path.named (Path.settle above)) name =
      spot home absolute (Path.named above) name := by
  rw [spot, spot, (Path.sameWay_settle above).seat]

/-- Contents written to the sibling of a path, which is removed if that fails. -/
def fill (path : Path) (contents : Text) : Script (Except IoCause Path) := do
  match ← writeAll (partOf path) contents with
  | .ok _ => return .ok (partOf path)
  | .error e =>
    let _ ← Script.operation (.remove (partOf path))
    return .error e

theorem stage_run (path : Path) (contents : Text) (tree : Tree) :
    (stage path contents).run tree =
      match (ensureParent path).run tree with
      | (.error e, made) => (.error e, made)
      | (.ok _, made) => (fill path contents).run made := by
  refine (Script.run_bind (ensureParent path) _ tree).trans ?_
  rcases (ensureParent path).run tree with ⟨outcome, made⟩
  cases outcome <;> rfl

def removed (path : Path) (tree : Tree) : Tree :=
  (Operation.settle tree (tree.removeFile path)).2

theorem fill_run (path : Path) (contents : Text) (tree : Tree) :
    (fill path contents).run tree =
      match tree.createFile (partOf path) with
      | .error e => (.error e, removed (partOf path) tree)
      | .ok created =>
        match created.writeFile (partOf path) contents with
        | .error e => (.error e, removed (partOf path) created)
        | .ok written => (.ok (partOf path), written) := by
  cases hcreate : tree.createFile (partOf path) with
  | error e =>
    simp [fill, writeAll, Script.operation, Script.run, Script.bind, Operation.apply,
      Operation.settle, hcreate, bind, pure, removed]
  | ok created =>
    cases hwrite : created.writeFile (partOf path) contents with
    | error e =>
      simp [fill, writeAll, Script.operation, Script.run, Script.bind, Operation.apply,
        Operation.settle, hcreate, hwrite, bind, pure, removed]
    | ok written =>
      simp [fill, writeAll, Script.operation, Script.run, Script.bind, Operation.apply,
        Operation.settle, hcreate, hwrite, bind, pure]

theorem commit_run (part path : Path) (tree : Tree) :
    (commit part path).run tree =
      match tree.rename part path with
      | .error e => (.error e, removed part tree)
      | .ok moved => (.ok (), moved) := by
  cases hrename : tree.rename part path with
  | error e =>
    simp [commit, Script.operation, Script.run, Script.bind, Operation.apply, Operation.settle,
      hrename, bind, pure, removed]
  | ok moved =>
    simp [commit, Script.operation, Script.run, Script.bind, Operation.apply, Operation.settle,
      hrename, bind, pure]

abbrev slotOf (home : Place) (absolute : Bool) (above : List Text) (name : Text) : Place :=
  spot home absolute (Path.named above) name

theorem isLocal_moveStaged (home : Place) (absolute : Bool) (above : List Text) (name : Text)
    (able : Bool) (content : Content) :
    (Act.move able (slotOf home absolute above (partName name)) (slotOf home absolute above name)
      content).IsLocal
        [slotOf home absolute above (partName name), slotOf home absolute above name] :=
  Act.isLocal_move able content List.mem_cons_self
    (List.mem_cons_of_mem _ (List.mem_singleton_self _))

theorem removed_of_error (h : ∃ e, tree.removeFile path = .error e) : removed path tree = tree := by
  obtain ⟨e, he⟩ := h
  rw [removed, he]
  rfl

section Open

/-! In a directory whose way is open. -/

variable (h : path.Ends above name)
  (hopen : Opens tree.get? (Path.origin tree.home path.isAbsolute) (Path.named above))

include hopen

theorem opens_settle :
    Opens tree.get? (Path.origin tree.home path.isAbsolute) (Path.named (Path.settle above)) :=
  ((Path.sameWay_settle above).opens _ _).mpr hopen

include h

theorem removed_partOf (hcheck : checkPath (partOf path) = .ok ()) {content : Content}
    (hfile : tree.get? (slotOf tree.home path.isAbsolute above (partName name)) =
      some (.file content)) :
    (removed (partOf path) tree).home = tree.home ∧
      (removed (partOf path) tree).get? =
        (Act.clear (slotOf tree.home path.isAbsolute above (partName name)) tree.get?).2 := by
  have hentry := hfile
  rw [slotOf, ← spot_partOf] at hentry
  have hremove := removeFile_ok (leadsTo_partOf h) (opens_settle hopen) hcheck hentry
  have hremoved : removed (partOf path) tree = tree.prune (spot tree.home path.isAbsolute
      (Path.named (Path.settle above)) (partName name)) := by
    rw [removed, hremove]
    rfl
  rw [hremoved, spot_partOf]
  refine ⟨rfl, ?_⟩
  rw [get?_prune_file hfile, Act.clear, if_neg (by simp [hfile])]

theorem removed_of_file (hcheck : checkPath path = .ok ()) {content : Content}
    (hfile : tree.get? (slotOf tree.home path.isAbsolute above name) = some (.file content)) :
    (removed path tree).home = tree.home ∧
      (removed path tree).get? =
        (Act.clear (slotOf tree.home path.isAbsolute above name) tree.get?).2 := by
  have hremove := removeFile_ok h.leadsTo hopen hcheck hfile
  have hremoved : removed path tree = tree.prune (slotOf tree.home path.isAbsolute above name) := by
    rw [removed, hremove]
    rfl
  rw [hremoved]
  refine ⟨rfl, ?_⟩
  rw [get?_prune_file hfile, Act.clear, if_neg (by simp [hfile])]

theorem fill_effect (contents : Text) :
    Effect (partOf path) tree ((fill path contents).run tree)
      (Act.put (partOf path).isUsable (slotOf tree.home path.isAbsolute above (partName name))
        (.text contents) tree.get?) := by
  have hpart := leadsTo_partOf h
  have hopenPart := opens_settle hopen
  have hslot := spot_partOf tree.home path.isAbsolute above (partName name)
  rw [fill_run]
  by_cases hput : (partOf path).isUsable = true ∧
      tree.get? (slotOf tree.home path.isAbsolute above (partName name)) ≠ some .directory
  · have hput' := hput
    rw [slotOf, ← hslot] at hput'
    have hcheck := ((Path.isUsable_iff hpart).mp hput.1).1
    have hadmits := admits_file hpart hput.1 hopenPart hput'.2
    have hcreate := createFile_ok hpart hopenPart hput.1 hput'.2
    have hview := get?_put_file (hadmits (.text []))
    generalize hcreated : tree.put _ (.file (.text [])) = created at hcreate hview
    have hhome : created.home = tree.home := by rw [← hcreated, home_put]
    have hentry : created.get? (spot created.home path.isAbsolute
        (Path.named (Path.settle above)) (partName name)) = some (.file (.text [])) := by
      rw [hhome, hview, Function.update_self]
    have hopenCreated : Opens created.get? (Path.origin created.home path.isAbsolute)
        (Path.named (Path.settle above)) := by
      rw [hhome]
      refine hopenPart.mono fun place hplace => ?_
      rw [hview, Act.update_keeps hput'.2 (by simp), hplace]
    have hwrite := writeFile_ok hpart hopenCreated hcheck hentry contents
    have hwritten := get?_put_file (admits_file hpart hput.1 hopenCreated (by simp [hentry])
      (.text contents))
    rw [hcreate, Act.put, if_pos hput]
    simp only [hwrite]
    refine ⟨?_, ?_, fun _ => rfl, by simp⟩
    · rw [home_put, hhome]
    · rw [hwritten, hview, hhome, hslot, Function.update_idem]
  · have hput' := hput
    rw [slotOf, ← hslot] at hput'
    obtain ⟨e, hcreate⟩ := createFile_error hpart hopenPart hput'
    have hremove : ∃ e, tree.removeFile (partOf path) = .error e := by
      refine removeFile_error hpart hopenPart fun hfile => hput' ⟨?_, ?_⟩
      · obtain ⟨content, hcontent⟩ := isFileAt_iff.mp hfile.2
        exact (Path.isUsable_iff hpart).mpr ⟨hfile.1, width_le_of_get? hcontent⟩
      · obtain ⟨content, hcontent⟩ := isFileAt_iff.mp hfile.2
        simp [hcontent]
    rw [hcreate, Act.put, if_neg hput]
    simp only [removed_of_error hremove]
    exact ⟨rfl, rfl, by simp, fun _ => ⟨e, rfl⟩⟩

theorem commit_effect {contents : Text} (hcheck : checkPath (partOf path) = .ok ())
    (hfile : tree.get? (slotOf tree.home path.isAbsolute above (partName name)) =
      some (.file (.text contents))) :
    Effect () tree ((commit (partOf path) path).run tree)
      (Act.move path.isUsable (slotOf tree.home path.isAbsolute above (partName name))
        (slotOf tree.home path.isAbsolute above name) (.text contents) tree.get?) := by
  have hpart := leadsTo_partOf h
  have hopenPart := opens_settle hopen
  have hentry := hfile
  rw [slotOf, ← spot_partOf] at hentry
  rw [commit_run]
  by_cases hmove : path.isUsable = true ∧
      tree.get? (slotOf tree.home path.isAbsolute above name) ≠ some .directory
  · have hrename := rename_ok h.leadsTo hopen hpart hopenPart hcheck hentry hmove.1 hmove.2
    have hadmits := admits_file h.leadsTo hmove.1 hopen hmove.2 (.text contents)
    rw [hrename, Act.move, if_pos ⟨hmove.1, by simp [hfile], hmove.2⟩, spot_partOf]
    refine ⟨?_, ?_, fun _ => rfl, by simp⟩
    · rw [home_put, home_prune]
    · exact get?_move hfile hadmits
  · obtain ⟨e, hrename⟩ := rename_error h.leadsTo hopen hpart hopenPart hcheck hentry hmove
    obtain ⟨hhome, hview⟩ := removed_partOf h hopen hcheck hfile
    rw [hrename, Act.move, if_neg fun hm => hmove ⟨hm.1, hm.2.2⟩]
    exact ⟨hhome, hview, by simp, fun _ => ⟨e, rfl⟩⟩

end Open

theorem fill_of_not_opens (h : path.Ends above name)
    (hopen : ¬ Opens tree.get? (Path.origin tree.home path.isAbsolute) (Path.named above))
    (contents : Text) : ∃ e, (fill path contents).run tree = (.error e, tree) := by
  have hpart := leadsTo_partOf h
  have hopenPart : ¬ Opens tree.get? (Path.origin tree.home path.isAbsolute)
      (Path.named (Path.settle above)) := fun ho =>
    hopen (((Path.sameWay_settle above).opens _ _).mp ho)
  obtain ⟨e, hcreate⟩ := createFile_of_not_opens hpart hopenPart
  refine ⟨e, ?_⟩
  rw [fill_run, hcreate]
  simp only [removed_of_error (removeFile_of_not_opens hpart hopenPart)]

variable {slots : List Place} {act : Act}

theorem stage_of_not_arrives (h : path.Ends above name) (isLocal : act.IsLocal slots)
    (contents : Text)
    (hnot : ¬ (editAt tree.home path.isAbsolute above isLocal).Arrives tree.get?) :
    Effect (partOf path) tree ((stage path contents).run tree)
      (false, (editAt tree.home path.isAbsolute above isLocal).paved tree.get?) := by
  rw [stage_run]
  cases hground : Path.isGrounded path.isAbsolute above with
  | false =>
    obtain ⟨e, hensure⟩ := ensureParent_error h hground tree
    rw [hensure, Edit.paved_of_not_able hground]
    exact ⟨rfl, rfl, by simp, fun _ => ⟨e, rfl⟩⟩
  | true =>
    have hpassable : ¬ Passable tree.get? (Path.origin tree.home path.isAbsolute)
        (Path.named above) := fun hp => hnot ⟨hground, hp⟩
    have hensure := ensureParent_paves h hground tree
    rw [Edit.paved_of_able hground]
    generalize (ensureParent path).run tree = ran at hensure
    obtain ⟨outcome, made⟩ := ran
    cases outcome with
    | error e => exact ⟨hensure.home, hensure.view, by simp, fun _ => ⟨e, rfl⟩⟩
    | ok u =>
      have hopen : ¬ Opens made.get? (Path.origin made.home path.isAbsolute)
          (Path.named above) := by
        rw [show made.home = tree.home from hensure.home]
        exact fun ho => hpassable (passable_of_opens hensure.view ho)
      obtain ⟨e, hfill⟩ := fill_of_not_opens h hopen contents
      simp only [hfill]
      exact ⟨hensure.home, hensure.view, by simp, fun _ => ⟨e, rfl⟩⟩

theorem stage_of_arrives (h : path.Ends above name) (isLocal : act.IsLocal slots)
    (contents : Text)
    (harrives : (editAt tree.home path.isAbsolute above isLocal).Arrives tree.get?) :
    Effect (partOf path) tree ((stage path contents).run tree)
      (Act.put (partOf path).isUsable (slotOf tree.home path.isAbsolute above (partName name))
        (.text contents) ((editAt tree.home path.isAbsolute above isLocal).paved tree.get?)) := by
  obtain ⟨hground, hpassable⟩ := harrives
  have hensure := ensureParent_paves h hground tree
  have hdone := hensure.done hpassable
  rw [stage_run, Edit.paved_of_able hground]
  generalize (ensureParent path).run tree = ran at hensure hdone
  obtain ⟨outcome, made⟩ := ran
  obtain ⟨hhome, hview, -⟩ := hensure
  obtain rfl : outcome = .ok () := hdone
  simp only at hhome hview
  have hopen : Opens made.get? (Path.origin made.home path.isAbsolute) (Path.named above) := by
    rw [hhome, hview]
    exact hpassable.opens_pave
  have hfill := fill_effect h hopen contents
  rw [hhome, hview] at hfill
  exact ⟨hfill.home.trans hhome, hfill.view, hfill.ok, hfill.error⟩

/-- A script that starts by staging a file is an edit that starts by filling the slot of its
sibling. Where the directory cannot be had, both come to nothing but the way. -/
theorem stage_effect {α : Type} {result : α} {whole : Except IoCause α × Tree} {next : Act}
    {contents : Text}
    (h : path.Ends above name)
    (isLocal : (Act.andThen
      (.put (partOf path).isUsable (slotOf tree.home path.isAbsolute above (partName name))
        (.text contents)) .skip next).IsLocal slots)
    (hfailed : ∀ e staged, (stage path contents).run tree = (.error e, staged) →
      whole = (.error e, staged))
    (hnext : ∀ staged, (stage path contents).run tree = (.ok (partOf path), staged) →
      staged.home = tree.home → Path.isGrounded path.isAbsolute above = true →
      Opens staged.get? (Path.origin staged.home path.isAbsolute) (Path.named above) →
      checkPath (partOf path) = .ok () →
      staged.get? (slotOf staged.home path.isAbsolute above (partName name)) =
        some (.file (.text contents)) →
      Effect result staged whole (next staged.get?)) :
    Effect result tree whole ((editAt tree.home path.isAbsolute above isLocal).run tree.get?) := by
  by_cases harrives : (editAt tree.home path.isAbsolute above isLocal).Arrives tree.get?
  · have hstage := stage_of_arrives h isLocal contents harrives
    have hground : Opens ((editAt tree.home path.isAbsolute above isLocal).paved tree.get?)
        (Path.origin tree.home path.isAbsolute) (Path.named above) := fun place hplace =>
      harrives.paved_ground hplace
    have hopen := hstage.opens (Act.isLocal_put _ _ (List.mem_singleton_self _)) hground
    rw [Edit.run_of_arrives harrives]
    generalize (stage path contents).run tree = ran at hstage hopen hfailed hnext
    obtain ⟨outcome, staged⟩ := ran
    refine hstage.andThen (fun e he _ => ?_) fun hok hput => ?_
    · obtain rfl := hfailed e staged (congrArg (·, staged) he)
      exact ⟨rfl, rfl, rfl⟩
    · obtain ⟨husable, hdone⟩ := Act.put_done hput
      refine hnext staged (congrArg (·, staged) hok) hstage.home harrives.1 hopen
        ((Path.isUsable_iff (leadsTo_partOf h)).mp husable).1 ?_
      rw [hstage.home, hstage.view, hdone, Function.update_self]
  · have hstage := stage_of_not_arrives h isLocal contents harrives
    obtain ⟨e, herror⟩ := hstage.error rfl
    rw [Edit.run_of_not_arrives harrives]
    generalize (stage path contents).run tree = ran at hstage herror hfailed
    obtain ⟨outcome, staged⟩ := ran
    obtain rfl := hfailed e staged (congrArg (·, staged) herror)
    exact ⟨hstage.home, hstage.view, by simp, fun _ => ⟨e, rfl⟩⟩

theorem stage_of_opens (h : path.Ends above name)
    (hground : Path.isGrounded path.isAbsolute above = true)
    (hopen : Opens tree.get? (Path.origin tree.home path.isAbsolute) (Path.named above))
    (contents : Text) :
    Effect (partOf path) tree ((stage path contents).run tree)
      (Act.put (partOf path).isUsable (slotOf tree.home path.isAbsolute above (partName name))
        (.text contents) tree.get?) := by
  have isLocal : Act.skip.IsLocal [] := Act.isLocal_skip []
  have hpaved : (editAt tree.home path.isAbsolute above isLocal).paved tree.get? = tree.get? := by
    rw [Edit.paved_of_able hground]
    exact pave_of_opens hopen
  have hstage := stage_of_arrives h isLocal contents ⟨hground, passable_of_tree_opens hopen⟩
  rwa [hpaved] at hstage

section Replacing

/-! A file that is replaced. -/

theorem writeReplacing_run (path : Path) (contents : Text) (tree : Tree) :
    (writeReplacing path contents).run tree =
      match (stage path contents).run tree with
      | (.error e, staged) => (.error e, staged)
      | (.ok part, staged) => (commit part path).run staged := by
  refine (Script.run_bind (stage path contents) _ tree).trans ?_
  rcases (stage path contents).run tree with ⟨outcome, staged⟩
  cases outcome <;> rfl

def replaceAct (home : Place) (path : Path) (above : List Text) (name contents : Text) : Act :=
  Act.andThen
    (.put (partOf path).isUsable (slotOf home path.isAbsolute above (partName name))
      (.text contents))
    .skip
    (.move path.isUsable (slotOf home path.isAbsolute above (partName name))
      (slotOf home path.isAbsolute above name) (.text contents))

def replaceSlots (home : Place) (path : Path) (above : List Text) (name : Text) : List Place :=
  [slotOf home path.isAbsolute above (partName name), slotOf home path.isAbsolute above name]

theorem isLocal_replace (home : Place) (path : Path) (above : List Text) (name contents : Text) :
    (replaceAct home path above name contents).IsLocal (replaceSlots home path above name) :=
  Act.isLocal_andThen (Act.isLocal_put _ _ (by simp [replaceSlots])) (Act.isLocal_skip _)
    (Act.isLocal_move _ _ (by simp [replaceSlots]) (by simp [replaceSlots]))

theorem slotOf_inj {home : Place} {absolute : Bool} {other : Text} :
    slotOf home absolute above name = slotOf home absolute above other ↔ name = other := by
  simp [slotOf, spot]

section Act

variable {home : Place} {contents : Text} {view : View}

/-- Replacing a file puts it in its slot and clears that of its sibling; or it fails, and nothing
is changed or a sibling is lost. -/
theorem replaceAct_cases (home : Place) (path : Path) (above : List Text) (name contents : Text)
    (view : View) :
    let part := slotOf home path.isAbsolute above (partName name)
    let done := replaceAct home path above name contents view
    (done.1 = true ∧ path.isUsable = true ∧
        done.2 = Function.update (Function.update view part none)
          (slotOf home path.isAbsolute above name) (some (.file (.text contents)))) ∨
      (done.1 = false ∧ (done.2 = view ∨ done.2 = Function.update view part none)) := by
  intro part done
  have hdone : done = replaceAct home path above name contents view := rfl
  rw [replaceAct] at hdone
  cases hput : (Act.put (partOf path).isUsable part (.text contents) view).1 with
  | false =>
    rw [Act.andThen_of_false hput] at hdone
    refine .inr ⟨by rw [hdone], .inl ?_⟩
    rw [hdone]
    unfold Act.put at hput ⊢
    split at hput
    · cases hput
    · rename_i hstuck
      rw [if_neg hstuck]
      rfl
  | true =>
    rw [Act.andThen_of_true hput, (Act.put_done hput).2] at hdone
    rw [hdone, Act.move]
    split
    · rename_i hmove
      refine .inl ⟨rfl, hmove.1, ?_⟩
      simp only [part, Function.update_idem]
    · refine .inr ⟨rfl, .inr ?_⟩
      simp [part, Act.clear]

theorem slot_ne_part (home : Place) (path : Path) (above : List Text) (name : Text) :
    slotOf home path.isAbsolute above name ≠ slotOf home path.isAbsolute above (partName name) := by
  rw [ne_eq, slotOf_inj, partName, List.self_eq_append_right]
  decide

theorem replaceAct_done (h : (replaceAct home path above name contents view).1 = true) :
    path.isUsable = true ∧
      (replaceAct home path above name contents view).2 (slotOf home path.isAbsolute above name) =
        some (.file (.text contents)) := by
  rcases replaceAct_cases home path above name contents view with ⟨-, husable, hview⟩ | ⟨hfailed, -⟩
  · exact ⟨husable, by rw [hview, Function.update_self]⟩
  · rw [h] at hfailed
    cases hfailed

theorem replaceAct_failed (h : (replaceAct home path above name contents view).1 = false) :
    (replaceAct home path above name contents view).2 (slotOf home path.isAbsolute above name) =
      view (slotOf home path.isAbsolute above name) := by
  rcases replaceAct_cases home path above name contents view with ⟨hdone, -⟩ | ⟨-, hview | hview⟩
  · rw [h] at hdone
    cases hdone
  · rw [hview]
  · rw [hview, Function.update_of_ne (slot_ne_part home path above name)]

theorem replaceAct_arrived {place : Place} {content : Content}
    (h : (replaceAct home path above name contents view).2 place = some (.file content)) :
    view place = some (.file content) ∨
      (replaceAct home path above name contents view).1 = true ∧
        place = slotOf home path.isAbsolute above name ∧ content = .text contents := by
  have hgone : ∀ {slot : Place}, Function.update view slot none place = some (.file content) →
      view place = some (.file content) := fun hfile =>
    (Act.file_of_update hfile).resolve_right (by simp)
  rcases replaceAct_cases home path above name contents view with
    ⟨hdone, -, hview⟩ | ⟨-, hview | hview⟩
  · rw [hview] at h
    by_cases hplace : place = slotOf home path.isAbsolute above name
    · subst hplace
      rw [Function.update_self, Option.some.injEq, Entry.file.injEq] at h
      exact .inr ⟨hdone, rfl, h.symm⟩
    · rw [Function.update_of_ne hplace] at h
      exact .inl (hgone h)
  · exact .inl (hview ▸ h)
  · rw [hview] at h
    exact .inl (hgone h)

theorem replaceAct_stays (place : Place) :
    (replaceAct home path above name contents view).2 place = view place ∨
      place = slotOf home path.isAbsolute above (partName name) ∨
      (replaceAct home path above name contents view).1 = true ∧
        place = slotOf home path.isAbsolute above name := by
  by_cases hpart : place = slotOf home path.isAbsolute above (partName name)
  · exact .inr (.inl hpart)
  rcases replaceAct_cases home path above name contents view with
    ⟨hdone, -, hview⟩ | ⟨-, hview | hview⟩
  · by_cases hplace : place = slotOf home path.isAbsolute above name
    · exact .inr (.inr ⟨hdone, hplace⟩)
    · exact .inl (by rw [hview, Function.update_of_ne hplace, Function.update_of_ne hpart])
  · exact .inl (by rw [hview])
  · exact .inl (by rw [hview, Function.update_of_ne hpart])

end Act

def replaceEdit (home : Place) (path : Path) (above : List Text) (name contents : Text) : Edit :=
  editAt home path.isAbsolute above (isLocal_replace home path above name contents)

/-- Replacing a file is one edit. -/
theorem writeReplacing_effect (h : path.Ends above name) (contents : Text) (tree : Tree) :
    Effect () tree ((writeReplacing path contents).run tree)
      ((replaceEdit tree.home path above name contents).run tree.get?) := by
  rw [writeReplacing_run]
  refine stage_effect h (isLocal_replace tree.home path above name contents)
    (fun e staged hrun => by rw [hrun]) fun staged hrun hhome _ hopen hcheck hfile => ?_
  have hcommit := commit_effect h hopen hcheck hfile
  rwa [hrun, ← hhome]

end Replacing

end Storage

end ClassSkeleton
