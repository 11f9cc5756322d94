import ClassSkeleton.Proofs.Tree.Act
import ClassSkeleton.Proofs.Tree.Spot
import ClassSkeleton.Tree.Script
import Mathlib.Data.List.Infix

/-!
What operations can do to a tree. Directories stay, new ones appear only where an operation makes
them, and files come, go and change only in its slots. So a path leads where it led before, unless
it goes up through a directory that has been made or ends in a slot.
-/
namespace ClassSkeleton

open ClassSkeleton.Tree

namespace Tree

/-- Where a path leads, if its way is open. -/
def goal (tree : Tree) (path : Path) : Place := seat (tree.startOf path) path.names

/-- What a tree may be after operations that make directories at some places and have some slots. -/
structure Drifts (made slots : List Place) (tree left : Tree) : Prop where
  home : left.home = tree.home
  keeps : ∀ place, tree.get? place = some .directory → left.get? place = some .directory
  directory : ∀ place, left.get? place = some .directory →
    tree.get? place = some .directory ∨ place ∈ made
  files : ∀ place, place ∉ slots → ∀ content,
    left.get? place = some (.file content) ↔ tree.get? place = some (.file content)

variable {tree left last : Tree} {path source : Path} {made slots : List Place} {place : Place}
  {absolute : Bool} {dirs : List Text} {name : Text}

theorem startOf_congr (h : left.home = tree.home) (path : Path) :
    left.startOf path = tree.startOf path := by
  rw [Path.startOf_eq, Path.startOf_eq, h]

theorem goal_congr (h : left.home = tree.home) (path : Path) : left.goal path = tree.goal path := by
  rw [goal, goal, startOf_congr h]

theorem goal_eq_spot (h : path.LeadsTo absolute dirs name) (tree : Tree) :
    tree.goal path = spot tree.home absolute dirs name := by
  rw [goal, h.names, Path.startOf_eq, h.isAbsolute, seat_append, spot]
  exact onward_of_not_dots _ h.proper

namespace Drifts

theorem refl (made slots : List Place) (tree : Tree) : Drifts made slots tree tree where
  home := rfl
  keeps _ h := h
  directory _ h := .inl h
  files _ _ _ := Iff.rfl

theorem trans (h : Drifts made slots tree left) (hthen : Drifts made slots left last) :
    Drifts made slots tree last where
  home := hthen.home.trans h.home
  keeps place hplace := hthen.keeps place (h.keeps place hplace)
  directory place hplace := (hthen.directory place hplace).elim (h.directory place) .inr
  files place hslot content := (hthen.files place hslot content).trans (h.files place hslot content)

theorem mono {more others : List Place} (h : Drifts made slots tree left) (hmade : made ⊆ more)
    (hslots : slots ⊆ others) : Drifts more others tree left where
  home := h.home
  keeps := h.keeps
  directory place hplace := (h.directory place hplace).imp_right fun hmem => hmade hmem
  files place hslot := h.files place fun hmem => hslot (hslots hmem)

end Drifts

theorem get?_put_ne {other : Place} {entry : Entry} (h : place ≠ other) :
    (tree.put place entry).get? other = tree.get? other := by
  by_cases hadmits : tree.Admits place entry
  · rw [get?_put hadmits, if_neg h]
  · rw [put, dif_neg hadmits]

theorem drifts_put_directory (hnone : tree.get? place = none) :
    Drifts [place] [] tree (tree.put place .directory) := by
  by_cases hadmits : tree.Admits place .directory
  · refine ⟨home_put _ _ _, ?keeps, ?directory, ?files⟩
    case keeps =>
      intro other hother
      rw [get?_put hadmits]
      split
      · rfl
      · exact hother
    case directory =>
      intro other hother
      rw [get?_put hadmits] at hother
      split at hother
      · rename_i hsame
        exact .inr (List.mem_singleton.mpr hsame.symm)
      · exact .inl hother
    case files =>
      intro other _ content
      rw [get?_put hadmits]
      split
      · rename_i hsame
        simp [← hsame, hnone]
      · rfl
  · rw [put, dif_neg hadmits]
    exact .refl _ _ _

theorem drifts_put_file (tree : Tree) (place : Place) (content : Content) :
    Drifts [] [place] tree (tree.put place (.file content)) := by
  by_cases hadmits : tree.Admits place (.file content)
  · have hplace : tree.get? place ≠ some .directory := fun hdir => by
      have hentry := hadmits.2.2.2 hdir
      cases hentry
    refine ⟨home_put _ _ _, ?keeps, ?directory, ?files⟩
    case keeps =>
      intro other hother
      have hne : place ≠ other := fun hsame => hplace (hsame ▸ hother)
      rw [get?_put_ne hne, hother]
    case directory =>
      intro other hother
      rw [get?_put hadmits] at hother
      split at hother
      · cases hother
      · exact .inl hother
    case files =>
      intro other hother content
      have hne : place ≠ other := fun hsame => hother (List.mem_singleton.mpr hsame.symm)
      rw [get?_put_ne hne]
  · rw [put, dif_neg hadmits]
    exact .refl _ _ _

theorem drifts_prune_file {content : Content} (hfile : tree.get? place = some (.file content)) :
    Drifts [] [place] tree (tree.prune place) := by
  have hview := get?_prune_file hfile
  refine ⟨home_prune _ _, ?keeps, ?directory, ?files⟩
  case keeps =>
    intro other hother
    rw [hview, Act.update_keeps (by simp [hfile]) (by simp), hother]
  case directory =>
    intro other hother
    rw [hview, Act.update_keeps (by simp [hfile]) (by simp)] at hother
    exact .inl hother
  case files =>
    intro other hother content
    rw [hview, Function.update_of_ne fun hsame => hother (List.mem_singleton.mpr hsame)]

theorem walk_eq_ok {here : Place} {names : List Text} (h : tree.walk here names = .ok place) :
    place = seat here names := by
  induction names generalizing here with
  | nil => exact (Except.ok.inj h).symm
  | cons name names ih =>
    rw [walk] at h
    split at h
    · cases h
    · rename_i next hnext
      obtain ⟨-, rfl, -⟩ := enter_eq_ok hnext
      exact ih h

theorem target_eq_ok {here : Place} (h : tree.target path = .ok (here, name)) :
    checkPath path = .ok () ∧ path.names = path.names.dropLast ++ [name] ∧
      Opens tree.get? (tree.startOf path) path.names.dropLast ∧
      here = seat (tree.startOf path) path.names.dropLast := by
  unfold target at h
  cases hcheck : checkPath path with
  | error e => simp [hcheck, bind, Except.bind] at h
  | ok u =>
    simp only [hcheck, bind, Except.bind] at h
    split at h
    · cases h
    · rename_i last hlast
      cases hwalk : tree.walk (tree.startOf path) path.names.dropLast with
      | error e => simp [hwalk] at h
      | ok parent =>
        simp only [hwalk] at h
        split at h
        · rename_i hparent
          simp only [pure, Except.pure, Except.ok.injEq, Prod.mk.injEq] at h
          obtain ⟨rfl, rfl⟩ := h
          obtain ⟨hopen, hseat⟩ := opens_of_walk hwalk (isDirectoryAt_iff.mp hparent)
          obtain ⟨dirs, hdirs⟩ := List.getLast?_eq_some_iff.mp hlast
          exact ⟨rfl, by rw [hdirs, List.dropLast_concat], hopen, hseat⟩
        · cases h

theorem ok_of_target {next : Place × Text → Except IoCause Tree}
    (h : (tree.target path >>= next) = .ok left) :
    ∃ here name, tree.target path = .ok (here, name) ∧ next (here, name) = .ok left := by
  cases htarget : tree.target path with
  | error e =>
    rw [htarget] at h
    cases h
  | ok found =>
    rw [htarget] at h
    exact ⟨found.1, found.2, rfl, h⟩

theorem goal_of_target {here : Place} (h : tree.target path = .ok (here, name))
    (hdots : isDots name = false) : here ++ [name] = tree.goal path := by
  obtain ⟨-, hnames, -, rfl⟩ := target_eq_ok h
  rw [goal, hnames, seat_append, List.dropLast_concat]
  exact (onward_of_not_dots _ hdots).symm

theorem makeDirectory_drifts (h : tree.makeDirectory path = .ok left) :
    Drifts [tree.goal path] [] tree left := by
  unfold makeDirectory at h
  obtain ⟨here, name, htarget, h⟩ := ok_of_target h
  simp only at h
  split at h
  · cases h
  rename_i hdots
  split at h
  · cases h
  split at h
  · cases h
  rename_i hnone
  obtain rfl := Except.ok.inj h
  rw [← goal_of_target htarget (by simpa using hdots)]
  exact drifts_put_directory (by simpa using hnone)

theorem createFile_drifts (h : tree.createFile path = .ok left) :
    Drifts [] [tree.goal path] tree left := by
  unfold createFile at h
  obtain ⟨here, name, htarget, h⟩ := ok_of_target h
  simp only at h
  split at h
  · cases h
  rename_i hdots
  split at h
  · cases h
  split at h
  · cases h
  obtain rfl := Except.ok.inj h
  rw [Bool.or_eq_true, not_or] at hdots
  rw [← goal_of_target htarget (by simpa using hdots.1)]
  exact drifts_put_file tree _ _

theorem lookup_eq_ok {entry : Entry} (h : tree.lookup path = .ok (place, entry)) :
    place = tree.goal path ∧ tree.get? place = some entry := by
  obtain ⟨-, hwalk, hentry, -⟩ := lookup_eq_ok_iff.mp h
  exact ⟨walk_eq_ok hwalk, hentry⟩

theorem writeFile_drifts {text : Text} (h : tree.writeFile path text = .ok left) :
    Drifts [] [tree.goal path] tree left := by
  unfold writeFile at h
  split at h
  · cases h
  · cases h
  · rename_i found content hlook
    obtain rfl := Except.ok.inj h
    rw [← (lookup_eq_ok hlook).1]
    exact drifts_put_file tree found _

theorem removeFile_drifts (h : tree.removeFile path = .ok left) :
    Drifts [] [tree.goal path] tree left := by
  unfold removeFile at h
  obtain ⟨here, name, htarget, h⟩ := ok_of_target h
  simp only at h
  split at h
  · cases h
  rename_i hdots
  split at h
  · cases h
  · cases h
  · rename_i content hfile
    split at h
    · cases h
    · obtain rfl := Except.ok.inj h
      rw [← goal_of_target htarget (by simpa using hdots)]
      exact drifts_prune_file hfile

theorem rename_eq_ok (h : tree.rename source path = .ok left) :
    ∃ sourceHere sourceName here name content,
      tree.target source = .ok (sourceHere, sourceName) ∧ isDots sourceName = false ∧
        tree.get? (sourceHere ++ [sourceName]) = some (.file content) ∧
        tree.target path = .ok (here, name) ∧ isDots name = false ∧
        Text.width name ≤ nameLimit ∧ path.wantsDirectory = false ∧
        tree.get? (here ++ [name]) ≠ some .directory ∧
        left = (tree.prune (sourceHere ++ [sourceName])).put (here ++ [name]) (.file content) := by
  unfold rename at h
  obtain ⟨sourceHere, sourceName, hsource, h⟩ := ok_of_target h
  obtain ⟨here, name, htarget, h⟩ := ok_of_target h
  simp only at h
  split at h
  · cases h
  rename_i hdots
  rw [Bool.or_eq_true, not_or, Bool.not_eq_true, Bool.not_eq_true] at hdots
  split at h
  · cases h
  · cases h
  rename_i content hfile
  split at h
  · cases h
  rename_i hwidth
  split at h
  · cases h
  rename_i hcloses
  rw [Bool.or_eq_true, not_or, Bool.not_eq_true, Bool.not_eq_true] at hcloses
  split at h
  · cases h
  rename_i hfree
  exact ⟨sourceHere, sourceName, here, name, content, hsource, hdots.1, hfile, htarget, hdots.2,
    Nat.not_lt.mp hwidth, hcloses.2, fun hdir => hfree (isDirectoryAt_iff.mpr hdir),
    (Except.ok.inj h).symm⟩

theorem rename_drifts (h : tree.rename source path = .ok left) :
    Drifts [] [tree.goal source, tree.goal path] tree left := by
  obtain ⟨sourceHere, sourceName, here, name, content, hsource, hsourceDots, hfile, htarget, hdots,
    -, -, -, rfl⟩ := rename_eq_ok h
  rw [← goal_of_target hsource hsourceDots, ← goal_of_target htarget hdots]
  have htaken := (drifts_prune_file hfile).mono (List.Subset.refl [])
    (List.cons_subset_cons _ (List.nil_subset [here ++ [name]]))
  have hput := (drifts_put_file (tree.prune (sourceHere ++ [sourceName])) (here ++ [name])
    content).mono (List.Subset.refl []) (List.subset_cons_self (sourceHere ++ [sourceName]) _)
  exact htaken.trans hput

/-- Making directories makes none but those that the paths lead to, however far it gets. -/
theorem makeDirectories_drifts (paths : List Path) (tree : Tree) :
    Drifts (paths.map tree.goal) [] tree (tree.makeDirectories paths).2 := by
  induction paths generalizing tree with
  | nil => exact .refl _ _ _
  | cons path above ih =>
    have hone : ∀ {tree left : Tree}, tree.makeDirectory path = .ok left →
        Drifts ((path :: above).map tree.goal) [] tree left := fun h =>
      (makeDirectory_drifts h).mono (List.cons_subset_cons _ (List.nil_subset _))
        (List.Subset.refl [])
    rw [makeDirectories]
    simp only
    split
    · exact .refl _ _ _
    split
    · rename_i made hmake
      exact hone hmake
    · have hup := (ih tree).mono (List.subset_cons_self (tree.goal path) _) (List.Subset.refl [])
      split
      · rename_i e made hmade
        rw [hmade] at hup
        exact hup
      · rename_i u made hmade
        rw [hmade] at hup
        split
        · rename_i left hmake
          have hlast := hone hmake
          have hgoals : (path :: above).map made.goal = (path :: above).map tree.goal :=
            List.map_congr_left fun other _ => goal_congr hup.home other
          rw [hgoals] at hlast
          exact hup.trans hlast
        · exact hup
    · exact .refl _ _ _

section Lookup

/-! What a path leads to after a drift. -/

theorem isAbsolute_of_nameless (htext : path.text ≠ []) (hnames : path.names = []) :
    path.isAbsolute = true := by
  obtain ⟨c, rest, hcons⟩ := List.exists_cons_of_ne_nil htext
  have hmem : c ∈ Text.join ['/'] path.segments := by
    rw [Path.segments, Text.join_splitOn (List.cons_ne_nil '/' []), hcons]
    exact List.mem_cons_self
  rcases Text.mem_join hmem with hslash | ⟨segment, hsegment, hc⟩
  · rw [Path.isAbsolute, hcons, List.mem_singleton.mp hslash]
    rfl
  · have hname : segment ∈ path.names :=
      List.mem_filter.mpr ⟨hsegment, by simpa using List.ne_nil_of_mem hc⟩
    rw [hnames] at hname
    cases hname

theorem leadsTo_of_lookup {content : Content} (h : tree.lookup path = .ok (place, .file content)) :
    ∃ dirs name, path.LeadsTo path.isAbsolute dirs name := by
  obtain ⟨hplace, hentry⟩ := lookup_eq_ok h
  obtain ⟨hcheck, hwalk, -, hdirectory | hcloses⟩ := lookup_eq_ok_iff.mp h
  · cases hdirectory
  have htext : path.text ≠ [] := ((Path.checkPath_eq_ok_iff _).mp hcheck).2.1
  rcases List.eq_nil_or_concat path.names with hnil | ⟨dirs, name, hnames⟩
  · have htop : tree.startOf path = [] := by
      rw [startOf, isAbsolute_of_nameless htext hnil, if_pos rfl]
    rw [hplace, goal, hnil, htop, seat_nil, get?_nil] at hentry
    cases hentry
  rw [List.concat_eq_append] at hnames
  refine ⟨dirs, name, hnames, rfl, hcloses, ?_⟩
  rw [hnames, walk_concat] at hwalk
  obtain ⟨here, -, henter⟩ := hwalk
  obtain ⟨hhere, rfl, -⟩ := enter_eq_ok henter
  exact not_dots_of_onward hhere (by simp [hentry])

/-- Wherever the names go up, the way so far is open. -/
def Anchored (view : View) (here : Place) (names : List Text) : Prop :=
  ∀ front ∈ names.inits, front.getLast? = some ['.', '.'] → Opens view here front

instance (view : View) (here : Place) (names : List Text) : Decidable (Opens view here names) :=
  inferInstanceAs (Decidable (∀ place ∈ here :: trail here names, view place = some .directory))

instance (view : View) (here : Place) (names : List Text) : Decidable (Anchored view here names) :=
  inferInstanceAs (Decidable (∀ front ∈ names.inits, _ → _))

namespace Anchored

variable {view : View} {here : Place} {names front : List Text}

theorem initial (h : Anchored view here names) (hfront : front <+: names) :
    Anchored view here front := fun first hfirst =>
  h first ((List.mem_inits _ _).mpr (((List.mem_inits _ _).mp hfirst).trans hfront))

theorem opens_up (h : Anchored view here names) (hfront : front ++ [['.', '.']] <+: names) :
    Opens view here (front ++ [['.', '.']]) :=
  h _ ((List.mem_inits _ _).mpr hfront) List.getLast?_concat

theorem of_opens (hopen : Opens view here front) {back : List Text}
    (hback : ∀ name ∈ back, name ≠ ['.', '.']) : Anchored view here (front ++ back) := by
  intro first hfirst hup
  rcases List.prefix_or_prefix_of_prefix ((List.mem_inits _ _).mp hfirst)
    (List.prefix_append front back) with hshort | ⟨more, rfl⟩
  · obtain ⟨rest, rfl⟩ := hshort
    exact ((opens_append _ _ _ _).mp hopen).1
  · rcases List.eq_nil_or_concat more with rfl | ⟨between, name, hmore⟩
    · rwa [List.append_nil]
    · rw [List.concat_eq_append] at hmore
      subst hmore
      rw [← List.append_assoc, List.getLast?_concat] at hup
      have hname : name ∈ back := by
        have hsub := (List.prefix_append_right_inj front).mp ((List.mem_inits _ _).mp hfirst)
        exact hsub.subset (by simp)
      exact absurd (Option.some.inj hup) (hback name hname)

theorem concat (h : Anchored view here names) {name : Text} (hname : isDots name = false) :
    Anchored view here (names ++ [name]) := by
  intro front hfront hup
  rw [isDots_eq_false_iff] at hname
  rcases List.prefix_concat_iff.mp ((List.mem_inits _ _).mp hfront) with rfl | hshort
  · rw [List.getLast?_concat] at hup
    exact absurd (Option.some.inj hup) hname.2
  · exact h front ((List.mem_inits _ _).mpr hshort) hup

theorem of_downward (h : ∀ name ∈ names, name ≠ ['.', '.']) : Anchored view here names := by
  intro front hfront hup
  have hmem := List.mem_of_getLast? hup
  exact absurd rfl (h _ (((List.mem_inits _ _).mp hfront).subset hmem))

theorem opens (h : Anchored tree.get? here names)
    (hseat : tree.get? (seat here names) = some .directory) : Opens tree.get? here names := by
  induction names using List.reverseRecOn with
  | nil => exact (opens_nil _ _).mpr hseat
  | append_singleton front name ih =>
    have hfront := h.initial (List.prefix_append front [name])
    rw [seat_append] at hseat
    change tree.get? (onward (seat here front) name) = some .directory at hseat
    suffices hopen : Opens tree.get? here front by
      rw [opens_append, opens_cons, opens_nil]
      exact ⟨hopen, hopen.seat, hseat⟩
    unfold onward at hseat
    split at hseat
    · exact ih hfront hseat
    split at hseat
    · rename_i hup
      subst hup
      exact ((opens_append _ _ _ _).mp (h.opens_up List.prefix_rfl)).1
    · exact ih hfront (get?_of_concat hseat)

/-- A place on the way of anchored names is a directory, or does not lie beyond its end. -/
theorem passed (h : Anchored tree.get? here names) (hfront : front <+: names) :
    tree.get? (seat here front) = some .directory ∨ seat here front <+: seat here names := by
  obtain ⟨back, rfl⟩ := hfront
  induction back using List.reverseRecOn with
  | nil => exact .inr (by rw [List.append_nil])
  | append_singleton back name ih =>
    rw [← List.append_assoc] at h ⊢
    rcases ih (h.initial (List.prefix_append _ _)) with hdir | hbelow
    · exact .inl hdir
    rw [seat_append _ (front ++ back)]
    change _ ∨ seat here front <+: onward (seat here (front ++ back)) name
    unfold onward
    split
    · exact .inr hbelow
    split
    · rename_i hup
      subst hup
      have hopen := h.opens_up List.prefix_rfl
      rw [List.append_assoc] at hopen
      exact .inl ((opens_append _ _ _ _).mp hopen).1.seat
    · exact .inr (hbelow.trans (List.prefix_append _ _))

end Anchored

/-- The directories that are made do not change where the path leads. -/
def Unmoved (made : List Place) (tree : Tree) (path : Path) : Prop :=
  made = [] ∨ Anchored tree.get? (tree.startOf path) path.names ∧
    (tree.goal path ∈ made → tree.get? (tree.goal path) = some .directory)

theorem isFile_congr (h : (left.lookup path).toOption = (tree.lookup path).toOption) :
    left.isFile path = tree.isFile path := by
  rw [isFile, isFile]
  cases hleft : left.lookup path <;> cases htree : tree.lookup path <;>
    simp_all [Except.toOption]

namespace Drifts

variable (h : Drifts made slots tree left)

include h

theorem opens (hopen : Opens tree.get? place dirs) : Opens left.get? place dirs :=
  hopen.mono h.keeps

theorem opens_iff (hmade : made = []) : Opens left.get? place dirs ↔ Opens tree.get? place dirs :=
  ⟨fun hopen => hopen.mono fun other hdir =>
    (h.directory other hdir).resolve_right (by simp [hmade]), h.opens⟩

theorem lookup_directory (hunmoved : Unmoved made tree path) :
    left.lookup path = .ok (place, .directory) ↔ tree.lookup path = .ok (place, .directory) := by
  rw [lookup_directory_iff, lookup_directory_iff, startOf_congr h.home]
  suffices hopens : Opens left.get? (tree.startOf path) path.names ↔
      Opens tree.get? (tree.startOf path) path.names by rw [hopens]
  rcases hunmoved with hmade | ⟨hanchored, hgoal⟩
  · exact h.opens_iff hmade
  · refine ⟨fun hopen => hanchored.opens ?_, h.opens⟩
    exact (h.directory _ hopen.seat).elim (fun hdir => hdir) hgoal

theorem lookup_file (hunmoved : Unmoved made tree path)
    (hslot : ∀ dirs name, path.LeadsTo path.isAbsolute dirs name → tree.goal path ∉ slots)
    {content : Content} :
    left.lookup path = .ok (place, .file content) ↔
      tree.lookup path = .ok (place, .file content) := by
  suffices hleads : ∀ dirs name, path.LeadsTo path.isAbsolute dirs name →
      (left.lookup path = .ok (place, .file content) ↔
        tree.lookup path = .ok (place, .file content)) by
    constructor
    · intro hlook
      obtain ⟨dirs, name, hpath⟩ := leadsTo_of_lookup hlook
      exact (hleads dirs name hpath).mp hlook
    · intro hlook
      obtain ⟨dirs, name, hpath⟩ := leadsTo_of_lookup hlook
      exact (hleads dirs name hpath).mpr hlook
  intro dirs name hpath
  have hspot := hslot dirs name hpath
  rw [goal_eq_spot hpath] at hspot
  rw [lookup_file_iff hpath, lookup_file_iff hpath, h.home]
  constructor
  · rintro ⟨hcheck, hopen, rfl, hentry⟩
    rw [h.files _ hspot] at hentry
    refine ⟨hcheck, ?_, rfl, hentry⟩
    rcases hunmoved with hmade | ⟨hanchored, -⟩
    · exact (h.opens_iff hmade).mp hopen
    · rw [Path.startOf_eq] at hanchored
      have hfront : dirs <+: path.names := hpath.names ▸ List.prefix_append _ _
      exact (hanchored.initial hfront).opens (get?_of_concat hentry)
  · rintro ⟨hcheck, hopen, rfl, hentry⟩
    exact ⟨hcheck, h.opens hopen, rfl, (h.files _ hspot _).mpr hentry⟩

/-- A path that is not moved and ends in no slot leads to what it led to before. -/
theorem lookup_toOption (hunmoved : Unmoved made tree path)
    (hslot : ∀ dirs name, path.LeadsTo path.isAbsolute dirs name → tree.goal path ∉ slots) :
    (left.lookup path).toOption = (tree.lookup path).toOption := by
  have hsame : ∀ found, left.lookup path = .ok found ↔ tree.lookup path = .ok found := by
    rintro ⟨place, - | content⟩
    · exact h.lookup_directory hunmoved
    · exact h.lookup_file hunmoved hslot
  cases htree : tree.lookup path with
  | ok found => rw [(hsame found).mpr htree]
  | error e =>
    cases hleft : left.lookup path with
    | ok found =>
      rw [hsame, htree] at hleft
      cases hleft
    | error e => rfl

theorem isFile_eq (hmade : made = []) (hslot : tree.goal path ∉ slots) :
    left.isFile path = tree.isFile path :=
  isFile_congr (h.lookup_toOption (.inl hmade) fun _ _ _ => hslot)

end Drifts

theorem lookup_writeFile {text : Text} (h : tree.writeFile path text = .ok left) :
    left.lookup path = .ok (left.goal path, .file (.text text)) := by
  have hdrifts := writeFile_drifts h
  unfold writeFile at h
  split at h
  · cases h
  · cases h
  · rename_i found old hlook
    obtain rfl := Except.ok.inj h
    obtain ⟨dirs, name, hpath⟩ := leadsTo_of_lookup hlook
    obtain ⟨hcheck, hopen, rfl, hentry⟩ := (lookup_file_iff hpath).mp hlook
    rw [lookup_file_iff hpath, goal_eq_spot hpath, home_put]
    refine ⟨hcheck, hdrifts.opens hopen, rfl, ?_⟩
    have hadmits : tree.Admits (spot tree.home path.isAbsolute dirs name) (.file (.text text)) :=
      ⟨by simp [spot], isName_of_get? hentry, get?_dropLast hentry, by simp [hentry]⟩
    rw [get?_put hadmits, if_pos rfl]

theorem lookup_rename {content : Content} (h : tree.rename source path = .ok left)
    (hfile : tree.lookup source = .ok (place, .file content)) :
    left.lookup path = .ok (left.goal path, .file content) := by
  have hdrifts := rename_drifts h
  obtain ⟨sourceHere, sourceName, here, name, other, hsource, hsourceDots, hother, htarget, hdots,
    hwidth, hcloses, hfree, rfl⟩ := rename_eq_ok h
  obtain ⟨hplace, hentry⟩ := lookup_eq_ok hfile
  rw [hplace, ← goal_of_target hsource hsourceDots, hother] at hentry
  obtain rfl : other = content := Entry.file.inj (Option.some.inj hentry)
  obtain ⟨hcheck, hnames, hopen, hhere⟩ := target_eq_ok htarget
  have hleads : path.LeadsTo path.isAbsolute path.names.dropLast name :=
    ⟨hnames, rfl, hcloses, hdots⟩
  have husable := (Path.isUsable_iff hleads).mpr ⟨hcheck, hwidth⟩
  have hspot : here ++ [name] = spot tree.home path.isAbsolute path.names.dropLast name := by
    rw [hhere]
    rfl
  rw [hspot] at hfree hdrifts ⊢
  have hadmits := admits_file hleads husable hopen hfree other
  rw [lookup_file_iff hleads, goal_eq_spot hleads, home_put, home_prune]
  refine ⟨hcheck, hdrifts.opens hopen, rfl, ?_⟩
  rw [get?_move hother hadmits, Function.update_self]

theorem isFile_of_renamed (hsource : source.LeadsTo absolute dirs name)
    (h : tree.rename source path = .ok left) (hgoals : tree.goal source ≠ tree.goal path) :
    left.isFile source = false := by
  have hdrifts := rename_drifts h
  obtain ⟨sourceHere, sourceName, here, other, content, htarget, hsourceDots, hfile, hplace, hdots,
    -, -, -, rfl⟩ := rename_eq_ok h
  have hfrom := goal_of_target htarget hsourceDots
  have hto := goal_of_target hplace hdots
  rw [hfrom] at hfile hdrifts ⊢
  rw [hto] at hdrifts ⊢
  have hnone : ((tree.prune (tree.goal source)).put (tree.goal path) (.file content)).get?
      (tree.goal source) = none := by
    rw [get?_put_ne hgoals.symm, get?_prune_file hfile, Function.update_self]
  rw [← Bool.not_eq_true, isFile_iff hsource, hdrifts.home, ← goal_eq_spot hsource,
    isFileAt_eq_false_of_none hnone]
  rintro ⟨-, -, hleft⟩
  cases hleft

theorem isFile_of_removed (h : path.LeadsTo absolute dirs name)
    (hremove : tree.removeFile path = .ok left) : left.isFile path = false := by
  by_cases hopen : Opens tree.get? (Path.origin tree.home absolute) dirs
  · by_cases hfile : checkPath path = .ok () ∧
        isFileAt tree.get? (spot tree.home absolute dirs name) = true
    · obtain ⟨hcheck, hentry⟩ := hfile
      obtain ⟨content, hcontent⟩ := isFileAt_iff.mp hentry
      rw [removeFile_ok h hopen hcheck hcontent] at hremove
      obtain rfl := Except.ok.inj hremove
      rw [← Bool.not_eq_true, isFile_iff h, home_prune, get?_prune_file hcontent]
      rintro ⟨-, -, hleft⟩
      rw [isFileAt_eq_false_of_none (Function.update_self _ _ _)] at hleft
      cases hleft
    · obtain ⟨e, herror⟩ := removeFile_error h hopen hfile
      rw [hremove] at herror
      cases herror
  · obtain ⟨e, herror⟩ := removeFile_of_not_opens h hopen
    rw [hremove] at herror
    cases herror

theorem isFile_of_not_removed {e : IoCause} (h : path.LeadsTo absolute dirs name)
    (hremove : tree.removeFile path = .error e) : tree.isFile path = false := by
  rw [← Bool.not_eq_true, isFile_iff h]
  rintro ⟨hcheck, hopen, hentry⟩
  obtain ⟨content, hcontent⟩ := isFileAt_iff.mp hentry
  rw [removeFile_ok h hopen hcheck hcontent] at hremove
  cases hremove

end Lookup

end Tree

namespace Operation

def made (tree : Tree) : Operation → List Place
  | .makeDirectories path => path.ancestors.map tree.goal
  | _ => []

def slots (tree : Tree) : Operation → List Place
  | .makeDirectories _ | .flush _ => []
  | .create path | .write path _ | .remove path => [tree.goal path]
  | .rename source target => [tree.goal source, tree.goal target]

theorem settle_drifts {made slots : List Place} {tree : Tree} {result : Except IoCause Tree}
    (h : ∀ left, result = .ok left → Drifts made slots tree left) :
    Drifts made slots tree (settle tree result).2 := by
  cases result with
  | ok left => exact h left rfl
  | error e => exact .refl _ _ _

theorem apply_drifts (operation : Operation) (tree : Tree) :
    Drifts (operation.made tree) (operation.slots tree) tree (operation.apply tree).2 := by
  cases operation with
  | makeDirectories path => exact makeDirectories_drifts path.ancestors tree
  | create path => exact settle_drifts fun _ => createFile_drifts
  | write path text => exact settle_drifts fun _ => writeFile_drifts
  | flush path => exact .refl _ _ _
  | rename source target => exact settle_drifts fun _ => rename_drifts
  | remove path => exact settle_drifts fun _ => removeFile_drifts

end Operation

end ClassSkeleton
