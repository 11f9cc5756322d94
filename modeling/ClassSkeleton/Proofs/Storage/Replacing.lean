import ClassSkeleton.Proofs.Storage.Siblings
import ClassSkeleton.Proofs.Tree.Faults

/-!
Replacing a file, from operation to operation. Until the sibling is renamed nothing but the
sibling changes, and from then on all of the contents are in place; so whoever looks at the path
finds what was there before or the whole file, whichever operation fails. Directories that are made
for the path can still open a way that goes up through them, unless the path is pinned.
-/
namespace ClassSkeleton

open ClassSkeleton.Tree

namespace Tree

theorem exists_of_isDirectory {tree : Tree} {path : Path} (h : tree.isDirectory path = true) :
    tree.exists? path = true := by
  obtain ⟨hcheck, hopen⟩ := isDirectory_iff.mp h
  rw [exists?, lookup_directory_iff.mpr ⟨hcheck, hopen, rfl⟩]
  rfl

/-- A file with the contents, all of them, is where the path leads. -/
def Holds (tree : Tree) (path : Path) (contents : Text) : Prop :=
  tree.lookup path = .ok (tree.goal path, .file (.text contents))

theorem Holds.drifts {tree left : Tree} {path : Path} {contents : Text} {slots : List Place}
    (h : tree.Holds path contents) (hdrifts : Drifts [] slots tree left)
    (hslot : tree.goal path ∉ slots) : left.Holds path contents := by
  rw [Holds, goal_congr hdrifts.home]
  exact (hdrifts.lookup_file (.inl rfl) fun _ _ _ => hslot).mpr h

/-- If there is a file at the place in one of the trees, it is there in both. -/
def SameFile (tree left : Tree) (place : Place) : Prop :=
  ∀ content, left.get? place = some (.file content) ↔ tree.get? place = some (.file content)

/-- The path leads to what it led to in the other tree, or to nothing in both. -/
def SameAt (tree left : Tree) (path : Path) : Prop :=
  (left.lookup path).toOption = (tree.lookup path).toOption

instance (tree left : Tree) (path : Path) : Decidable (tree.SameAt left path) :=
  inferInstanceAs (Decidable (_ = _))

end Tree

namespace Storage

variable {faulty : Operation → Prop} {path : Path} {contents : Text} {tree left : Tree}

/-- Directories have been made for the path, and files have changed at its sibling alone. -/
abbrev Pending (path : Path) (tree left : Tree) : Prop :=
  Drifts (tree.madeFor path) [tree.goal (partOf path)] tree left

abbrev Approached (path : Path) (tree left : Tree) : Prop := Drifts (tree.madeFor path) [] tree left

/-- The parent of the path was no directory, and no more than directories have been made for it. -/
def Unready (path : Path) (tree left : Tree) : Prop :=
  Approached path tree left ∧
    ∃ parent, path.parent? = some parent ∧ parent.text ≠ [] ∧ tree.isDirectory parent = false

/-- There is no file at the sibling, if it can be removed. -/
def Cleared (faulty : Operation → Prop) (left : Tree) (path : Path) : Prop :=
  ¬ faulty (.remove (partOf path)) → left.isFile (partOf path) = false

def Ensured (path : Path) (tree : Tree) : Except IoCause Unit → Tree → Prop
  | .ok _, left => Approached path tree left
  | .error _, left => Unready path tree left

def Staged (faulty : Operation → Prop) (path : Path) (contents : Text) (tree : Tree) :
    Except IoCause Path → Tree → Prop
  | .ok part, left => Pending path tree left ∧ part = partOf path ∧ left.Holds part contents
  | .error _, left => Pending path tree left ∧ (Unready path tree left ∨ Cleared faulty left path)

def Replaced (faulty : Operation → Prop) (path : Path) (contents : Text) (tree : Tree) :
    Except IoCause Unit → Tree → Prop
  | .ok _, left => left.Holds path contents
  | .error _, left => Pending path tree left ∧ (Unready path tree left ∨ Cleared faulty left path)

theorem goal_partOf (h : Pending path tree left) :
    left.goal (partOf path) = tree.goal (partOf path) :=
  goal_congr h.home _

theorem ensureParent_secures (faulty : Operation → Prop) (path : Path) (tree : Tree) :
    (ensureParent path).Secures faulty (Approached path tree) (Ensured path tree) tree := by
  have hstart : Approached path tree tree := .refl _ _ _
  rw [ensureParent]
  split
  · exact ⟨hstart, hstart⟩
  rename_i parent hparent
  split
  · exact ⟨hstart, hstart⟩
  rename_i htext
  have htext : parent.text ≠ [] := by simpa using htext
  refine ⟨hstart, hstart, ?_⟩
  change Script.Secures faulty _ _ (if tree.exists? parent && !tree.isDirectory parent then
      (Script.done (.error (.occupied parent.text)) : Script (Except IoCause Unit))
    else if tree.exists? parent then .done (.ok ())
    else Script.operation (.makeDirectories parent)) tree
  split
  · rename_i hoccupied
    rw [Bool.and_eq_true, Bool.not_eq_true'] at hoccupied
    exact ⟨hstart, hstart, parent, hparent, htext, hoccupied.2⟩
  split
  · exact ⟨hstart, hstart⟩
  rename_i hmissing
  rw [Bool.not_eq_true] at hmissing
  have hmade : tree.madeFor path = parent.ancestors.map tree.goal := by
    rw [madeFor, hparent]
    simp [htext, hmissing]
  refine Script.secures_operation hstart fun outcome left hends => ?_
  have hleft : Approached path tree left :=
    hends.drifts_from hstart (by rw [hmade]; exact List.Subset.refl _) (List.nil_subset _)
  cases outcome with
  | ok u => exact ⟨hleft, hleft⟩
  | error e =>
    have hdirectory : tree.isDirectory parent = false := by
      rw [← Bool.not_eq_true]
      intro hdirectory
      rw [exists_of_isDirectory hdirectory] at hmissing
      cases hmissing
    exact ⟨hleft, hleft, parent, hparent, htext, hdirectory⟩

theorem pending_trans {last : Tree} (h : Pending path tree left)
    (hdrifts : Drifts [] [left.goal (partOf path)] left last) : Pending path tree last :=
  h.trans (hdrifts.mono (List.nil_subset _) (by rw [goal_partOf h]; exact List.Subset.refl _))

theorem pending_ends {operation : Operation} {outcome : Except IoCause Unit} {last : Tree}
    (h : Pending path tree left) (hends : operation.Ends faulty left outcome last)
    (hmade : operation.made left = []) (hslots : operation.slots left ⊆ [left.goal (partOf path)]) :
    Pending path tree last :=
  pending_trans h (hends.drifts.mono (by rw [hmade]; exact List.Subset.refl _) hslots)

/-- The sibling is removed in a failure. -/
theorem remove_secures {α : Type} {result : α} {between : Tree → Prop} {goal : α → Tree → Prop}
    (hbetween : between left)
    (h : ∀ last, Drifts [] [left.goal (partOf path)] left last → Cleared faulty last path →
      between last ∧ goal result last) :
    (Script.operation (.remove (partOf path)) >>= fun _ => pure result).Secures faulty between goal
      left := by
  obtain ⟨dirs, name, hleads⟩ := exists_leadsTo_partOf path
  exact ⟨hbetween, fun outcome last hends =>
    h last hends.drifts fun hsound => hends.remove_isFile hleads hsound⟩

def Written (path : Path) (contents : Text) (tree : Tree) : Except IoCause Unit → Tree → Prop
  | .ok _, left => Pending path tree left ∧ left.Holds (partOf path) contents
  | .error _, left => Pending path tree left

theorem writeAll_secures (h : Pending path tree left) :
    (writeAll (partOf path) contents).Secures faulty (Pending path tree)
      (Written path contents tree) left := by
  refine ⟨h, fun outcome created hends => ?_⟩
  have hcreated := pending_ends h hends rfl (List.Subset.refl _)
  cases outcome with
  | error e => exact ⟨hcreated, hcreated⟩
  | ok u =>
    refine ⟨hcreated, fun outcome written hends => ?_⟩
    have hwritten := pending_ends hcreated hends rfl (List.Subset.refl _)
    cases outcome with
    | error e => exact ⟨hwritten, hwritten⟩
    | ok u =>
      have hholds : written.Holds (partOf path) contents := lookup_writeFile hends.write_ok
      refine ⟨hwritten, fun outcome flushed hends => ?_⟩
      have hflushed := pending_ends hwritten hends rfl (List.nil_subset _)
      cases outcome with
      | error e => exact ⟨hflushed, hflushed⟩
      | ok u =>
        obtain rfl : written = flushed := congrArg Prod.snd hends.of_ok
        exact ⟨hflushed, hflushed, hholds⟩

theorem stage_secures (faulty : Operation → Prop) (path : Path) (contents : Text) (tree : Tree) :
    (stage path contents).Secures faulty (Pending path tree) (Staged faulty path contents tree)
      tree := by
  have hpending : ∀ left, Approached path tree left → Pending path tree left := fun _ h =>
    h.mono (List.Subset.refl _) (List.nil_subset _)
  have hensure := (ensureParent_secures faulty path tree).weaken hpending
  refine hensure.bind fun outcome left hensured => ?_
  cases outcome with
  | error e => exact ⟨hpending left hensured.1, hpending left hensured.1, .inl hensured⟩
  | ok u =>
    refine (writeAll_secures (hpending left hensured)).bind fun outcome left hwritten => ?_
    cases outcome with
    | ok u => exact ⟨hwritten.1, hwritten.1, rfl, hwritten.2⟩
    | error e =>
      refine remove_secures hwritten fun last hdrifts hcleared => ?_
      have hlast := pending_trans hwritten hdrifts
      exact ⟨hlast, hlast, .inr hcleared⟩

theorem goal_ne_goal_partOf {dirs : List Text} {name : Text} {absolute : Bool} (tree : Tree)
    (h : path.LeadsTo absolute dirs name) : tree.goal path ≠ tree.goal (partOf path) := by
  obtain ⟨above, hends, -⟩ := h.ends
  rw [goal_eq_spot hends.leadsTo, goal_eq_spot (leadsTo_partOf hends), spot_partOf]
  intro hsame
  have hnames := slotOf_inj.mp hsame
  rw [partName, List.self_eq_append_right] at hnames
  cases hnames

/-- How committing ends, from a tree that holds the sibling. -/
def Committed (faulty : Operation → Prop) (path : Path) (contents : Text) (tree : Tree) :
    Except IoCause Unit → Tree → Prop
  | .ok _, left =>
    Drifts [] [tree.goal (partOf path), tree.goal path] tree left ∧ left.Holds path contents ∧
      left.isFile (partOf path) = false
  | .error _, left =>
    Drifts [] [tree.goal (partOf path)] tree left ∧ Cleared faulty left path

theorem commit_secures (faulty : Operation → Prop) (hholds : tree.Holds (partOf path) contents) :
    (commit (partOf path) path).Secures faulty
      (fun left => Drifts [] [tree.goal (partOf path)] tree left ∨ left.Holds path contents)
      (Committed faulty path contents tree) tree := by
  obtain ⟨dirs, name, hpart⟩ := exists_leadsTo_partOf path
  refine ⟨.inl (.refl _ _ _), fun outcome moved hends => ?_⟩
  cases outcome with
  | ok u =>
    have hrename := hends.rename_ok
    have hmoved : moved.Holds path contents := lookup_rename hrename hholds
    obtain ⟨above, last, hpath⟩ := leadsTo_of_lookup hmoved
    exact ⟨.inr hmoved, hends.drifts, hmoved,
      isFile_of_renamed hpart hrename (goal_ne_goal_partOf tree hpath).symm⟩
  | error e =>
    obtain rfl := hends.rename_error
    exact remove_secures (.inl (.refl _ _ _)) fun last hdrifts hcleared =>
      ⟨.inl hdrifts, hdrifts, hcleared⟩

theorem writeReplacing_secures (faulty : Operation → Prop) (path : Path) (contents : Text)
    (tree : Tree) :
    (writeReplacing path contents).Secures faulty
      (fun left => Pending path tree left ∨ left.Holds path contents)
      (Replaced faulty path contents tree) tree := by
  have hstage : (stage path contents).Secures faulty
      (fun left => Pending path tree left ∨ left.Holds path contents)
      (Staged faulty path contents tree) tree :=
    (stage_secures faulty path contents tree).weaken fun _ hpending => .inl hpending
  refine hstage.bind fun outcome left hstaged => ?_
  cases outcome with
  | error e => exact ⟨.inl hstaged.1, hstaged⟩
  | ok part =>
    obtain ⟨hpending, rfl, hholds⟩ := hstaged
    refine (commit_secures faulty hholds).mono (fun last => Or.imp_left (pending_trans hpending))
      fun outcome last hcommitted => ?_
    cases outcome with
    | ok u => exact hcommitted.2.1
    | error e => exact ⟨pending_trans hpending hcommitted.1, .inr hcommitted.2⟩

theorem sameAt_of_pending (h : Pending path tree left) (hpins : tree.Pins path) :
    tree.SameAt left path :=
  h.lookup_toOption hpins.unmoved fun _ _ hleads hmem =>
    goal_ne_goal_partOf tree hleads (List.mem_singleton.mp hmem)

/-- Where the parent of a pinned path was no directory there is no sibling. -/
theorem isFile_of_unready (h : Unready path tree left) (hpins : tree.Pins path) :
    left.isFile (partOf path) = false := by
  obtain ⟨hleft, parent, hparent, htext, hdirectory⟩ := h
  have hsame := hleft.lookup_toOption (unmoved_partOf hpins) fun _ _ _ => List.not_mem_nil
  rw [← Bool.not_eq_true]
  intro hfile
  have hbefore : tree.isFile (partOf path) = true := by
    rw [← hfile]
    exact isFile_congr hsame.symm
  rw [isDirectory_of_isFile_partOf hparent htext hbefore] at hdirectory
  cases hdirectory

/-- Whoever looks at a path while its file is replaced finds what was there or all of the new
contents; in the end the contents are there, or nothing has changed at the path and no sibling is
left over. Any operation may be faulty. A path that is not pinned may lead somewhere else when
directories have been made; the files themselves are as they were. -/
theorem writeReplacing_whole (faulty : Operation → Prop) (path : Path) (contents : Text)
    (tree : Tree) :
    let script := writeReplacing path contents
    (∀ point, Script.Comes faulty (script, tree) point →
      (∀ place ≠ tree.goal (partOf path), tree.SameFile point.2 place) ∨
        point.2.Holds path contents) ∧
    (∀ left, Script.Comes faulty (script, tree) (.done (.ok ()), left) →
      left.Holds path contents) ∧
    (tree.Pins path →
      (∀ point, Script.Comes faulty (script, tree) point →
        tree.SameAt point.2 path ∨ point.2.Holds path contents) ∧
      ∀ e left, Script.Comes faulty (script, tree) (.done (.error e), left) →
        tree.SameAt left path ∧
          (¬ faulty (.remove (partOf path)) → left.isFile (partOf path) = false)) := by
  intro script
  have hsecures := writeReplacing_secures faulty path contents tree
  refine ⟨fun point hcomes => ?files, fun left hcomes => ?done, fun hpins =>
    ⟨fun point hcomes => ?same, fun e left hcomes => ?failed⟩⟩
  case files =>
    refine (hsecures.comes hcomes).now.imp_left fun hpending place hplace => ?_
    exact hpending.files place fun hmem => hplace (List.mem_singleton.mp hmem)
  case done => exact (hsecures.comes hcomes).2
  case same =>
    exact (hsecures.comes hcomes).now.imp_left fun hpending => sameAt_of_pending hpending hpins
  case failed =>
    obtain ⟨-, hpending, hcleared⟩ := hsecures.comes hcomes
    refine ⟨sameAt_of_pending hpending hpins, fun hsound => ?_⟩
    rcases hcleared with hunready | hcleared
    · exact isFile_of_unready hunready hpins
    · exact hcleared hsound

def squattedTree : Tree :=
  [(["c".toList], Entry.directory), (["c".toList, "T.html".toList], .file (.text "old".toList)),
    (["c".toList, "T.html.part".toList], .directory)].foldl
      (fun tree item => tree.put item.1 item.2) (Tree.bare [])

/-- Whatever fails, and wherever one looks, the page that is there is the old one or the new one. -/
theorem writeReplacing_whole_squatted :
    let path : Path := ⟨"c/T.html".toList⟩
    squattedTree.Pins path ∧
      ∀ point, Script.Comes (fun _ => True) (writeReplacing path "new".toList, squattedTree) point →
        point.2.readText path = .ok "old".toList ∨ point.2.readText path = .ok "new".toList := by
  intro path
  have hpins : squattedTree.Pins path := by decide
  refine ⟨hpins, fun point hcomes => ?_⟩
  have hsame := ((writeReplacing_whole (fun _ => True) path "new".toList squattedTree).2.2 hpins).1
    point hcomes
  refine hsame.imp (fun hold => ?_) fun hnew => ?_
  · have hbefore : squattedTree.lookup path =
        .ok (["c".toList, "T.html".toList], .file (.text "old".toList)) := by decide +kernel
    rw [SameAt, hbefore] at hold
    cases hlook : point.2.lookup path with
    | error e => simp [hlook, Except.toOption] at hold
    | ok found =>
      simp only [hlook, Except.toOption, Option.some.injEq] at hold
      rw [readText, hlook, hold]
  · rw [readText, hnew]

/-- A failed replacing whose path goes up through a directory that it makes first uncovers what is
there. -/
theorem not_sameAt_uncovered :
    ¬ ∀ (path : Path) (contents : Text) (tree : Tree) (e : IoCause) (left : Tree),
      Script.Comes (fun _ => False) (writeReplacing path contents, tree) (.done (.error e), left) →
        tree.SameAt left path := by
  intro hclaim
  have hran := Script.comes_run (fun _ => False)
    (writeReplacing ⟨"x/../c/T.html".toList⟩ "new".toList) squattedTree
  have hfailed : ((writeReplacing ⟨"x/../c/T.html".toList⟩ "new".toList).run squattedTree).1 =
      .error .isDirectory := by decide +kernel
  rw [hfailed] at hran
  exact absurd (hclaim _ _ _ _ _ hran) (by decide +kernel)

end Storage

end ClassSkeleton
