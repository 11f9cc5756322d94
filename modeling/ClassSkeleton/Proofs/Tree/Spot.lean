import ClassSkeleton.Proofs.Tree.Ancestors
import Mathlib.Logic.Function.Basic

/-!
Operations on files, by what they do to the entry that their path leads to. A path leads through
directories to a last name; if the way is open, the operation works on the entry under that name
and leaves all others alone, and if it is not, the operation fails.
-/
namespace ClassSkeleton

namespace Path

/-- The path leads through directories to a name that stands for a file or what could be one. -/
structure LeadsTo (path : Path) (absolute : Bool) (dirs : List Text) (name : Text) : Prop where
  names : path.names = dirs ++ [name]
  isAbsolute : path.isAbsolute = absolute
  closed : path.wantsDirectory = false
  proper : Tree.isDots name = false

/-- A system takes the path, and its last name is not too long for a directory. -/
def isUsable (path : Path) : Bool :=
  (Tree.checkPath path).toBool && decide (Text.width (path.names.getLastD []) ≤ nameLimit)

variable {path : Path} {absolute : Bool} {dirs : List Text} {name : Text}

theorem isUsable_iff (h : path.LeadsTo absolute dirs name) : path.isUsable = true ↔
    Tree.checkPath path = .ok () ∧ Text.width name ≤ nameLimit := by
  have hcheck : (Tree.checkPath path).toBool = true ↔ Tree.checkPath path = .ok () := by
    cases Tree.checkPath path <;> simp [Except.toBool]
  rw [isUsable, Bool.and_eq_true, hcheck, h.names, decide_eq_true_eq]
  simp

theorem LeadsTo.isName (h : path.LeadsTo absolute dirs name) (husable : path.isUsable = true) :
    ClassSkeleton.isName name = true := by
  obtain ⟨hcheck, hwidth⟩ := (isUsable_iff h).mp husable
  exact isName_of_mem_names hcheck (by simp [h.names]) h.proper hwidth

end Path

namespace Tree

def spot (home : Place) (absolute : Bool) (dirs : List Text) (name : Text) : Place :=
  seat (Path.origin home absolute) dirs ++ [name]

variable {tree : Tree} {path : Path} {absolute : Bool} {dirs : List Text} {name : Text}

theorem admits_file (h : path.LeadsTo absolute dirs name) (husable : path.isUsable = true)
    (hopen : Opens tree.get? (Path.origin tree.home absolute) dirs)
    (hentry : tree.get? (spot tree.home absolute dirs name) ≠ some .directory) (content : Content) :
    tree.Admits (spot tree.home absolute dirs name) (.file content) := by
  exact admits_concat hopen.seat (h.isName husable) fun hd => absurd hd hentry

theorem get?_put_file {place : Place} {entry : Entry} (h : tree.Admits place entry) :
    (tree.put place entry).get? = Function.update tree.get? place (some entry) := by
  funext other
  rw [get?_put h]
  by_cases hother : other = place
  · subst hother
    simp
  · rw [if_neg (Ne.symm hother), Function.update_of_ne hother]

theorem get?_prune_file {place : Place} {content : Content}
    (h : tree.get? place = some (.file content)) :
    (tree.prune place).get? = Function.update tree.get? place none := by
  have hplace : place ≠ [] := by
    rintro rfl
    rw [get?_nil] at h
    simp at h
  funext other
  rw [get?_prune tree hplace]
  by_cases hother : other = place
  · subst hother
    simp
  · rw [Function.update_of_ne hother]
    split
    · rename_i hbelow
      obtain ⟨back, rfl⟩ := List.isPrefixOf_iff_prefix.mp hbelow
      cases hentry : tree.get? (place ++ back) with
      | none => rfl
      | some entry =>
        have hdir := get?_of_append (fun hb => hother (by simp [hb])) hentry
        rw [h] at hdir
        simp at hdir
    · rfl

theorem target_of_leadsTo (h : path.LeadsTo absolute dirs name) (hcheck : checkPath path = .ok ())
    (hopen : Opens tree.get? (Path.origin tree.home absolute) dirs) :
    tree.target path = .ok (seat (Path.origin tree.home absolute) dirs, name) := by
  have hstart : tree.startOf path = Path.origin tree.home absolute := by
    rw [Path.startOf_eq, h.isAbsolute]
  rw [target_of_opens hcheck h.names (hstart ▸ hopen), hstart]

theorem target_of_checkPath {e : IoCause} (hcheck : checkPath path = .error e) :
    tree.target path = .error e := by
  rw [target, hcheck]
  rfl

theorem target_of_not_leads (h : path.LeadsTo absolute dirs name)
    (hopen : ¬ Opens tree.get? (Path.origin tree.home absolute) dirs) :
    ∃ e, tree.target path = .error e := by
  refine target_of_not_opens h.names ?_
  rwa [Path.startOf_eq, h.isAbsolute]

theorem lookup_file_iff (h : path.LeadsTo absolute dirs name) {place : Place} {content : Content} :
    tree.lookup path = .ok (place, .file content) ↔
      checkPath path = .ok () ∧ Opens tree.get? (Path.origin tree.home absolute) dirs ∧
        place = spot tree.home absolute dirs name ∧ tree.get? place = some (.file content) := by
  have hstart : tree.startOf path = Path.origin tree.home absolute := by
    rw [Path.startOf_eq, h.isAbsolute]
  have honward := onward_of_not_dots (seat (Path.origin tree.home absolute) dirs) h.proper
  rw [lookup_eq_ok_iff, h.names, hstart, walk_concat]
  constructor
  · rintro ⟨hcheck, ⟨here, hwalk, henter⟩, hentry, -⟩
    obtain ⟨hdir, rfl, -⟩ := enter_eq_ok henter
    obtain ⟨hopen, rfl⟩ := opens_of_walk hwalk hdir
    rw [honward] at hentry ⊢
    exact ⟨hcheck, hopen, rfl, hentry⟩
  · rintro ⟨hcheck, hopen, rfl, hentry⟩
    have hnext : tree.get? (onward (seat (Path.origin tree.home absolute) dirs) name) =
        some (.file content) := by rwa [honward]
    have henter := enter_of_there hopen.seat hnext
    rw [honward] at henter
    exact ⟨hcheck, ⟨_, walk_of_opens hopen, henter⟩, hentry, .inr h.closed⟩

theorem isFile_iff (h : path.LeadsTo absolute dirs name) : tree.isFile path = true ↔
    checkPath path = .ok () ∧ Opens tree.get? (Path.origin tree.home absolute) dirs ∧
      isFileAt tree.get? (spot tree.home absolute dirs name) = true := by
  rw [isFile, isFileAt_iff]
  constructor
  · intro hfile
    split at hfile
    · rename_i place content hlook
      obtain ⟨hcheck, hopen, rfl, hentry⟩ := (lookup_file_iff h).mp hlook
      exact ⟨hcheck, hopen, content, hentry⟩
    · simp at hfile
  · rintro ⟨hcheck, hopen, content, hentry⟩
    rw [(lookup_file_iff h).mpr ⟨hcheck, hopen, rfl, hentry⟩]

section Operations

/-! The operations on the spot of a path whose way is open. -/

variable (h : path.LeadsTo absolute dirs name)
  (hopen : Opens tree.get? (Path.origin tree.home absolute) dirs)

include h

theorem createFile_of_not_opens (hnot : ¬ Opens tree.get? (Path.origin tree.home absolute) dirs) :
    ∃ e, tree.createFile path = .error e := by
  obtain ⟨e, htarget⟩ := target_of_not_leads h hnot
  exact ⟨e, by simp [createFile, htarget, bind, Except.bind]⟩

theorem removeFile_of_not_opens (hnot : ¬ Opens tree.get? (Path.origin tree.home absolute) dirs) :
    ∃ e, tree.removeFile path = .error e := by
  obtain ⟨e, htarget⟩ := target_of_not_leads h hnot
  exact ⟨e, by simp [removeFile, htarget, bind, Except.bind]⟩

include hopen

theorem createFile_ok (husable : path.isUsable = true)
    (hentry : tree.get? (spot tree.home absolute dirs name) ≠ some .directory) :
    tree.createFile path =
      .ok (tree.put (spot tree.home absolute dirs name) (.file (.text []))) := by
  obtain ⟨hcheck, hwidth⟩ := (Path.isUsable_iff h).mp husable
  have hspot := isDirectoryAt_eq_false hentry
  rw [spot] at hspot
  simp [createFile, target_of_leadsTo h hcheck hopen, h.proper, h.closed, hspot, spot,
    Nat.not_lt.mpr hwidth, bind, Except.bind, pure, Except.pure]

theorem createFile_error (hnot : ¬ (path.isUsable = true ∧
    tree.get? (spot tree.home absolute dirs name) ≠ some .directory)) :
    ∃ e, tree.createFile path = .error e := by
  unfold createFile
  cases hcheck : checkPath path with
  | error e => exact ⟨e, by rw [target_of_checkPath hcheck]; rfl⟩
  | ok u =>
    rw [target_of_leadsTo h hcheck hopen]
    simp only [bind, Except.bind, h.proper, h.closed, Bool.or_self, Bool.false_eq_true, if_false]
    split
    · exact ⟨_, rfl⟩
    · rename_i hwidth
      rw [not_and, Decidable.not_not] at hnot
      have hdir := hnot ((Path.isUsable_iff h).mpr ⟨hcheck, Nat.not_lt.mp hwidth⟩)
      rw [← spot, if_pos (isDirectoryAt_iff.mpr hdir)]
      exact ⟨_, rfl⟩

theorem writeFile_ok (hcheck : checkPath path = .ok ()) {content : Content}
    (hentry : tree.get? (spot tree.home absolute dirs name) = some (.file content)) (text : Text) :
    tree.writeFile path text =
      .ok (tree.put (spot tree.home absolute dirs name) (.file (.text text))) := by
  rw [writeFile, (lookup_file_iff h).mpr ⟨hcheck, hopen, rfl, hentry⟩]

theorem removeFile_ok (hcheck : checkPath path = .ok ()) {content : Content}
    (hentry : tree.get? (spot tree.home absolute dirs name) = some (.file content)) :
    tree.removeFile path = .ok (tree.prune (spot tree.home absolute dirs name)) := by
  rw [spot] at hentry
  simp [removeFile, target_of_leadsTo h hcheck hopen, h.proper, h.closed, hentry, spot, bind,
    Except.bind, pure, Except.pure]

theorem removeFile_error (hnot : ¬ (checkPath path = .ok () ∧
    isFileAt tree.get? (spot tree.home absolute dirs name) = true)) :
    ∃ e, tree.removeFile path = .error e := by
  unfold removeFile
  cases hcheck : checkPath path with
  | error e => exact ⟨e, by rw [target_of_checkPath hcheck]; rfl⟩
  | ok u =>
    rw [target_of_leadsTo h hcheck hopen]
    simp only [bind, Except.bind, h.proper, Bool.false_eq_true, if_false]
    have hfile : ¬ isFileAt tree.get? (spot tree.home absolute dirs name) = true :=
      fun hf => hnot ⟨hcheck, hf⟩
    rw [spot] at hfile
    cases hentry : tree.get? (seat (Path.origin tree.home absolute) dirs ++ [name]) with
    | none => exact ⟨_, rfl⟩
    | some entry =>
      cases entry with
      | directory => exact ⟨_, rfl⟩
      | file content => exact absurd (isFileAt_iff.mpr ⟨content, hentry⟩) hfile

variable {source : Path} {sourceDirs : List Text} {sourceName : Text}
  (hsource : source.LeadsTo absolute sourceDirs sourceName)
  (hopenSource : Opens tree.get? (Path.origin tree.home absolute) sourceDirs)
  (hcheck : checkPath source = .ok ()) {content : Content}
  (hfile : tree.get? (spot tree.home absolute sourceDirs sourceName) = some (.file content))

include hsource hopenSource hcheck hfile

theorem rename_ok (husable : path.isUsable = true)
    (hentry : tree.get? (spot tree.home absolute dirs name) ≠ some .directory) :
    tree.rename source path = .ok ((tree.prune (spot tree.home absolute sourceDirs sourceName)).put
      (spot tree.home absolute dirs name) (.file content)) := by
  obtain ⟨hcheckPath, hwidth⟩ := (Path.isUsable_iff h).mp husable
  have hspot := isDirectoryAt_eq_false hentry
  rw [spot] at hspot hfile
  simp [rename, target_of_leadsTo hsource hcheck hopenSource, target_of_leadsTo h hcheckPath hopen,
    h.proper, hsource.proper, h.closed, hsource.closed, hfile, hspot, spot, Nat.not_lt.mpr hwidth,
    bind, Except.bind, pure, Except.pure]

theorem rename_error (hnot : ¬ (path.isUsable = true ∧
    tree.get? (spot tree.home absolute dirs name) ≠ some .directory)) :
    ∃ e, tree.rename source path = .error e := by
  unfold rename
  rw [target_of_leadsTo hsource hcheck hopenSource]
  cases hcheckPath : checkPath path with
  | error e => exact ⟨e, by rw [target_of_checkPath hcheckPath]; rfl⟩
  | ok u =>
    rw [spot] at hfile
    rw [target_of_leadsTo h hcheckPath hopen]
    simp only [bind, Except.bind, h.proper, hsource.proper, h.closed, hsource.closed, Bool.or_self,
      Bool.false_eq_true, if_false, hfile]
    split
    · exact ⟨_, rfl⟩
    · rename_i hwidth
      rw [not_and, Decidable.not_not] at hnot
      have hdir := hnot ((Path.isUsable_iff h).mpr ⟨hcheckPath, Nat.not_lt.mp hwidth⟩)
      rw [← spot, if_pos (isDirectoryAt_iff.mpr hdir)]
      exact ⟨_, rfl⟩

end Operations

theorem get?_move {source place : Place} {content : Content}
    (hsource : tree.get? source = some (.file content))
    (hadmits : tree.Admits place (.file content)) :
    ((tree.prune source).put place (.file content)).get? =
      Function.update (Function.update tree.get? source none) place (some (.file content)) := by
  have hprune := get?_prune_file hsource
  obtain ⟨hne, hnames, hdir, hstay⟩ := hadmits
  have hadmits : (tree.prune source).Admits place (.file content) := by
    refine ⟨hne, hnames, ?_, fun hplace => ?_⟩
    · have hother : place.dropLast ≠ source := by
        rintro rfl
        rw [hsource] at hdir
        simp at hdir
      rw [hprune, Function.update_of_ne hother, hdir]
    · rw [hprune] at hplace
      by_cases hother : place = source
      · subst hother
        simp at hplace
      · rw [Function.update_of_ne hother] at hplace
        exact hstay hplace
  rw [get?_put_file hadmits, hprune]

end Tree

end ClassSkeleton
