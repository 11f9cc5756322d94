import ClassSkeleton.Proofs.Storage.Places
import ClassSkeleton.Proofs.Tree.Drift

/-!
The parent and the sibling of any path, whether its last segment is a name or not. Directories that
have to be made for the parent are made at places that neither the path nor its sibling leads to,
if the path goes up only where its way is open.
-/
namespace ClassSkeleton

open ClassSkeleton.Tree Storage

theorem Text.join_initial (separator : Text) {front pieces : List Text} (h : front <+: pieces) :
    join separator front <+: join separator pieces := by
  induction front generalizing pieces with
  | nil => exact List.nil_prefix
  | cons piece front ih =>
    obtain ⟨rest, rfl, hfront⟩ := List.cons_prefix_iff.mp h
    by_cases hnil : front = []
    · subst hnil
      by_cases hrest : rest = []
      · rw [hrest]
      · rw [join_cons _ _ hrest, List.append_assoc]
        simp [join, List.intercalate]
    · have hrest : rest ≠ [] := fun hrest => hnil (List.prefix_nil.mp (hrest ▸ hfront))
      rw [join_cons _ _ hnil, join_cons _ _ hrest]
      exact (List.prefix_append_right_inj _).mpr (ih hfront)

namespace Path

variable {path parent : Path} {segment name : Text} {above dirs : List Text} {absolute : Bool}

theorem mem_upward {backward : List Text} (hslash : ∀ other ∈ backward, '/' ∉ other)
    (hroot : backward ≠ [] → (backward.getLast? = some [] ↔ absolute = true))
    (h : path ∈ upward absolute backward) :
    path.isAbsolute = absolute ∧ path.names <+: named backward := by
  induction backward with
  | nil =>
    rw [upward, List.mem_singleton] at h
    subst h
    cases absolute with
    | true => exact ⟨rfl, List.nil_prefix⟩
    | false => exact ⟨rfl, List.nil_prefix⟩
  | cons segment above ih =>
    have hup : path ∈ upward absolute above →
        path.isAbsolute = absolute ∧ path.names <+: named (segment :: above) := fun hmem => by
      obtain ⟨hsame, hnames⟩ := ih (fun other ho => hslash other (List.mem_cons_of_mem _ ho))
        (fun habove => by rw [← hroot (by simp), List.getLast?_cons_of_ne_nil habove]) hmem
      rw [named_cons]
      exact ⟨hsame, hnames.trans (List.prefix_append _ _)⟩
    rw [upward] at h
    split at h
    · exact hup h
    rename_i hfiller
    rcases List.mem_cons.mp h with rfl | hmem
    · have hsegment := ne_nil_of_not_filler (by simpa using hfiller)
      constructor
      · rw [Bool.eq_iff_iff, ← rooted_join hslash hsegment]
        exact hroot (by simp)
      · have hsegments : (Path.mk (Text.join ['/'] (segment :: above).reverse)).segments =
            (segment :: above).reverse :=
          Text.splitOn_join (by simp) fun piece hpiece => hslash piece (List.mem_reverse.mp hpiece)
        rw [names, hsegments, ← named]
    · exact hup hmem

theorem named_initial {backward : List Text} (h : above <:+ backward) :
    named above <+: named backward := by
  obtain ⟨front, rfl⟩ := h
  rw [named, named, List.reverse_append, List.filter_append]
  exact List.prefix_append _ _

theorem names_of_backward (h : path.backward = segment :: above) :
    SameWay (named (segment :: above)) path.names ∧ named above ++ [segment] <+: path.names := by
  have hsegment := ne_nil_of_not_filler (not_filler_of_backward h)
  have hnames : path.names = named path.segments.reverse := by
    rw [named, List.reverse_reverse, names]
  constructor
  · rw [hnames, ← h, backward]
    exact sameWay_settle _
  · obtain ⟨front, hfront⟩ := backward_suffix h
    have happend : named (front ++ segment :: above) =
        named above ++ [segment] ++ named front := by
      rw [named, List.reverse_append, List.filter_append, ← named, ← named, named_cons,
        if_neg (by simpa using hsegment)]
    rw [hnames, ← hfront, happend]
    exact List.prefix_append _ _

theorem backward_of_parent? (h : path.parent? = some parent) :
    ∃ segment above, path.backward = segment :: above ∧
      parent = ascend path.isAbsolute (settle above) := by
  cases hbackward : path.backward with
  | nil => simp [parent?, ancestors, hbackward] at h
  | cons segment above =>
    rw [parent?_of_backward hbackward] at h
    exact ⟨segment, above, rfl, (Option.some.inj h).symm⟩

section Ancestors

variable (h : path.backward = segment :: above)

include h

theorem mem_upward_of_backward {dir : Path} (hdir : dir ∈ upward path.isAbsolute above) :
    dir.isAbsolute = path.isAbsolute ∧ dir.names <+: named above :=
  mem_upward (fun other ho => slashless_of_backward h other (List.mem_cons_of_mem _ ho))
    (fun habove => by rw [← rooted_of_backward h, List.getLast?_cons_of_ne_nil habove]) hdir

theorem isAbsolute_ascend :
    (ascend path.isAbsolute (settle above)).isAbsolute = path.isAbsolute := by
  have hmem : ascend path.isAbsolute (settle above) ∈ upward path.isAbsolute above := by
    rw [← ancestors_of_backward h, ancestors]
    split <;> simp
  exact (mem_upward_of_backward h hmem).1

theorem names_ascend : (ascend path.isAbsolute (settle above)).names = named (settle above) := by
  rcases settle_cases above with hbase | ⟨other, rest, hbase, hfiller⟩
  · rw [hbase, ascend, if_pos rfl]
    cases path.isAbsolute <;> rfl
  · have hsuffix : other :: rest <:+ above := hbase ▸ settle_suffix above
    have hslash : ∀ piece ∈ other :: rest, '/' ∉ piece := fun piece hp =>
      slashless_of_backward h piece (List.mem_cons_of_mem _ (hsuffix.subset hp))
    have hsegments : (Path.mk (Text.join ['/'] (other :: rest).reverse)).segments =
        (other :: rest).reverse :=
      Text.splitOn_join (by simp) fun piece hpiece => hslash piece (List.mem_reverse.mp hpiece)
    rw [hbase, ascend, if_neg (by simp), names, hsegments, ← named]

theorem names_ascend_initial :
    (ascend path.isAbsolute (settle above)).names <+: named above := by
  rw [names_ascend h]
  exact named_initial (settle_suffix above)

theorem text_ascend_initial : (ascend path.isAbsolute (settle above)).text <+: path.text := by
  unfold ascend
  split
  · cases habsolute : path.isAbsolute with
    | false => exact List.nil_prefix
    | true => exact List.isPrefixOf_iff_prefix.mp habsolute
  · have hjoin : Text.join ['/'] path.segments = path.text :=
      Text.join_splitOn (List.cons_ne_nil '/' []) path.text
    have hsuffix := (settle_suffix above).trans
      ((List.suffix_cons segment above).trans (backward_suffix h))
    have hprefix := List.reverse_prefix.mpr hsuffix
    rw [List.reverse_reverse] at hprefix
    rw [← hjoin]
    exact Text.join_initial ['/'] hprefix

/-- Above an anchored path there are directories, and places that are not beyond the parent. -/
theorem goal_upward {tree : Tree}
    (hanchored : Anchored tree.get? (tree.startOf path) path.names) {dir : Path}
    (hdir : dir ∈ upward path.isAbsolute above) :
    tree.get? (tree.goal dir) = some .directory ∨
      (segment ≠ ['.', '.'] ∧ (tree.goal dir).length ≤
        (seat (tree.startOf path) (named above)).length) := by
  obtain ⟨habsolute, hnames⟩ := mem_upward_of_backward h hdir
  have hbegins := (names_of_backward h).2
  have hgoal : tree.goal dir = seat (tree.startOf path) dir.names := by
    rw [goal, startOf_eq, startOf_eq, habsolute]
  rw [hgoal]
  by_cases hup : segment = ['.', '.']
  · subst hup
    left
    have hopen := ((opens_append _ _ _ _).mp (hanchored.opens_up hbegins)).1
    obtain ⟨rest, hrest⟩ := hnames
    rw [← hrest] at hopen
    exact ((opens_append _ _ _ _).mp hopen).1.seat
  · have hfront := hanchored.initial ((List.prefix_append _ _).trans hbegins)
    exact (hfront.passed hnames).imp_right fun hbelow => ⟨hup, hbelow.length_le⟩

end Ancestors

theorem LeadsTo.ends (h : path.LeadsTo absolute dirs name) :
    ∃ above, path.Ends above name ∧ named above = dirs := by
  obtain ⟨front, last, hsegments⟩ := (List.eq_nil_or_concat path.segments).resolve_left
    (Text.splitFrom_ne_nil _ _ _)
  rw [List.concat_eq_append] at hsegments
  have hnames : path.names = front.filter (fun name => !name.isEmpty) ++
      [last].filter (fun name => !name.isEmpty) := by
    rw [Path.names, hsegments, List.filter_append]
  have hlast : last ≠ [] := by
    rintro rfl
    have hjoin : Text.join ['/'] (front ++ [[]]) = path.text := by
      rw [← hsegments]
      exact Text.join_splitOn (List.cons_ne_nil '/' []) path.text
    by_cases hfront : front = []
    · rw [h.names, hfront] at hnames
      simp at hnames
    · have hcloses : path.wantsDirectory = true := by
        rw [wantsDirectory, ← hjoin, Text.join_concat _ _ hfront, List.append_nil]
        exact List.isSuffixOf_iff_suffix.mpr (List.suffix_append _ _)
      rw [h.closed] at hcloses
      cases hcloses
  have hsingle : [last].filter (fun name => !name.isEmpty) = [last] := by
    simp [hlast]
  rw [h.names, hsingle] at hnames
  obtain ⟨hdirs, hname⟩ := List.append_inj' hnames rfl
  obtain rfl := List.singleton_inj.mp hname
  refine ⟨front.reverse, ⟨by rw [hsegments]; simp, h.proper, hlast⟩, ?_⟩
  rw [named, List.reverse_reverse, hdirs]

theorem leadsTo_push (path : Path) (hslash : '/' ∉ segment) (hne : segment ≠ [])
    (hdots : isDots segment = false) :
    (path.push segment).LeadsTo path.isAbsolute path.names segment := by
  obtain ⟨front, hfront, hnames⟩ := segments_push path hslash hne
  have hends : (path.push segment).Ends front.reverse segment :=
    ⟨by rw [hfront]; simp, hdots, hne⟩
  have hleads := hends.leadsTo
  rwa [isAbsolute_push path hslash hne, named, List.reverse_reverse, hnames] at hleads

theorem fileName?_eq_some (h : path.fileName? = some name) :
    ∃ above, path.backward = name :: above ∧ isDots name = false := by
  unfold fileName? at h
  split at h
  · cases h
  · rename_i other above hbackward
    split at h
    · cases h
    · rename_i hdots
      obtain rfl := Option.some.inj h
      exact ⟨above, hbackward, by simpa [isDots, not_or] using hdots⟩

end Path

namespace Storage

variable {path parent : Path} {tree : Tree}

/-- What the sibling of a path is pushed to: the parent, or a path without a last name itself. -/
theorem partOf_cases (path : Path) :
    (∃ name parent, path.fileName? = some name ∧ path.parent? = some parent ∧
      partOf path = parent.push (partName name)) ∨
    (path.fileName? = none ∧ partOf path = path.push (partName [])) := by
  cases hname : path.fileName? with
  | none =>
    refine .inr ⟨rfl, ?_⟩
    rw [partOf, Path.withFileName, hname]
    rfl
  | some name =>
    obtain ⟨above, hbackward, -⟩ := Path.fileName?_eq_some hname
    refine .inl ⟨name, _, rfl, Path.parent?_of_backward hbackward, ?_⟩
    rw [partOf, Path.withFileName, hname, Path.parent?_of_backward hbackward]
    rfl

theorem slashless_partName {name : Text} (h : '/' ∉ name) : '/' ∉ partName name := by
  simp [partName, h]

theorem slashless_of_fileName? {name : Text} (h : path.fileName? = some name) : '/' ∉ name := by
  obtain ⟨above, hbackward, -⟩ := Path.fileName?_eq_some h
  exact Path.slashless_of_backward hbackward name List.mem_cons_self

/-- The sibling of a path leads to a file, whatever the path does. -/
theorem exists_leadsTo_partOf (path : Path) :
    ∃ dirs name, (partOf path).LeadsTo path.isAbsolute dirs (partName name) := by
  rcases partOf_cases path with ⟨name, parent, hname, hparent, hpart⟩ | ⟨-, hpart⟩
  · obtain ⟨segment, above, hbackward, rfl⟩ := Path.backward_of_parent? hparent
    have hleads := Path.leadsTo_push (Path.ascend path.isAbsolute (Path.settle above))
      (slashless_partName (slashless_of_fileName? hname)) (partName_ne_nil name)
      (isDots_partName name)
    rw [← hpart, Path.isAbsolute_ascend hbackward] at hleads
    exact ⟨_, name, hleads⟩
  · have hleads := Path.leadsTo_push path (slashless_partName List.not_mem_nil)
      (partName_ne_nil []) (isDots_partName [])
    rw [← hpart] at hleads
    exact ⟨_, [], hleads⟩

end Storage

namespace Tree

/-- Nothing has to be made for the path, or it goes up only where its way is open. -/
def Pins (tree : Tree) (path : Path) : Prop :=
  (∀ parent ∈ path.parent?, parent.text = [] ∨ tree.exists? parent = true) ∨
    Anchored tree.get? (tree.startOf path) path.names

instance (tree : Tree) (path : Path) : Decidable (tree.Pins path) :=
  inferInstanceAs (Decidable (_ ∨ _))

def madeFor (tree : Tree) (path : Path) : List Place :=
  match path.parent? with
  | none => []
  | some parent =>
    if parent.text.isEmpty || tree.exists? parent then [] else parent.ancestors.map tree.goal

variable {tree : Tree} {path parent : Path}

theorem madeFor_cases (tree : Tree) (path : Path) : tree.madeFor path = [] ∨
    ∃ segment above, path.backward = segment :: above ∧
      (Path.ascend path.isAbsolute (Path.settle above)).text ≠ [] ∧
      tree.exists? (Path.ascend path.isAbsolute (Path.settle above)) = false ∧
      tree.madeFor path = (Path.upward path.isAbsolute above).map tree.goal := by
  rw [madeFor]
  split
  · exact .inl rfl
  rename_i parent hparent
  split
  · exact .inl rfl
  rename_i hmade
  obtain ⟨segment, above, hbackward, rfl⟩ := Path.backward_of_parent? hparent
  simp only [Bool.or_eq_true, List.isEmpty_iff, not_or, Bool.not_eq_true] at hmade
  refine .inr ⟨segment, above, hbackward, hmade.1, hmade.2, ?_⟩
  rw [Path.ancestors_of_backward hbackward]

/-- If directories have to be made, a pinned path goes up only where its way is open. -/
theorem Pins.anchored (h : tree.Pins path) {segment : Text} {above : List Text}
    (hbackward : path.backward = segment :: above)
    (htext : (Path.ascend path.isAbsolute (Path.settle above)).text ≠ [])
    (hmissing : tree.exists? (Path.ascend path.isAbsolute (Path.settle above)) = false) :
    Anchored tree.get? (tree.startOf path) path.names := by
  refine h.resolve_left fun hall => ?_
  rcases hall _ (Path.parent?_of_backward hbackward) with hempty | hexists
  · exact htext hempty
  · rw [hmissing] at hexists
    cases hexists

theorem ne_dot_of_parent {segment : Text} {above : List Text}
    (hbackward : path.backward = segment :: above)
    (htext : (Path.ascend path.isAbsolute (Path.settle above)).text ≠ []) : segment ≠ ['.'] := by
  rintro rfl
  have hfiller := Path.not_filler_of_backward hbackward
  obtain rfl : above = [] := by simpa [Path.isFiller] using hfiller
  cases habsolute : path.isAbsolute with
  | false => exact htext (by rw [habsolute]; rfl)
  | true =>
    have hfirst := (Path.rooted_of_backward hbackward).mpr habsolute
    simp at hfirst

/-- Making the parent of a pinned path does not change where the path leads. -/
theorem Pins.unmoved (h : tree.Pins path) : Unmoved (tree.madeFor path) tree path := by
  rcases madeFor_cases tree path with hnone | ⟨segment, above, hbackward, htext, hmissing, hmade⟩
  · exact .inl hnone
  have hanchored := h.anchored hbackward htext hmissing
  refine .inr ⟨hanchored, fun hmem => ?_⟩
  rw [hmade] at hmem
  obtain ⟨dir, hdir, hgoal⟩ := List.mem_map.mp hmem
  rw [← hgoal]
  refine (Path.goal_upward hbackward hanchored hdir).resolve_right fun hbelow => ?_
  obtain ⟨hup, hlength⟩ := hbelow
  have hsegment := Path.ne_nil_of_not_filler (Path.not_filler_of_backward hbackward)
  have hdots : isDots segment = false := by
    simp [isDots, hup, ne_dot_of_parent hbackward htext]
  rw [hgoal, goal, ← (Path.names_of_backward hbackward).1.seat, Path.named_cons,
    if_neg (by simpa using hsegment), seat_append] at hlength
  have hlast : seat (seat (tree.startOf path) (Path.named above)) [segment] =
      seat (tree.startOf path) (Path.named above) ++ [segment] := onward_of_not_dots _ hdots
  rw [hlast, List.length_append, List.length_singleton] at hlength
  omega

end Tree

namespace Storage

variable {path parent : Path} {tree : Tree} {segment : Text} {above : List Text}

theorem anchored_partOf (hanchored : Anchored tree.get? (tree.startOf path) path.names) :
    Anchored tree.get? (tree.startOf path) (partOf path).names := by
  rcases partOf_cases path with ⟨name, parent, hname, hparent, hpart⟩ | ⟨hname, hpart⟩
  · obtain ⟨segment, above, hbackward, rfl⟩ := Path.backward_of_parent? hparent
    have hleads := Path.leadsTo_push (Path.ascend path.isAbsolute (Path.settle above))
      (slashless_partName (slashless_of_fileName? hname)) (partName_ne_nil name)
      (isDots_partName name)
    rw [hpart, hleads.names]
    exact (hanchored.initial ((Path.names_ascend_initial hbackward).trans
      ((List.prefix_append _ _).trans (Path.names_of_backward hbackward).2))).concat
        (isDots_partName name)
  · have hleads := Path.leadsTo_push path (slashless_partName List.not_mem_nil)
      (partName_ne_nil []) (isDots_partName [])
    rw [hpart, hleads.names]
    exact hanchored.concat (isDots_partName [])

theorem unmoved_partOf (h : tree.Pins path) : Unmoved (tree.madeFor path) tree (partOf path) := by
  rcases madeFor_cases tree path with hnone | ⟨segment, above, hbackward, htext, hmissing, hmade⟩
  · exact .inl hnone
  have hanchored := h.anchored hbackward htext hmissing
  obtain ⟨dirs, name, hleads⟩ := exists_leadsTo_partOf path
  have hstart : tree.startOf (partOf path) = tree.startOf path := by
    rw [Path.startOf_eq, Path.startOf_eq, hleads.isAbsolute]
  refine .inr ⟨hstart ▸ anchored_partOf hanchored, fun hmem => ?_⟩
  rw [hmade] at hmem
  obtain ⟨dir, hdir, hgoal⟩ := List.mem_map.mp hmem
  rw [← hgoal]
  refine (Path.goal_upward hbackward hanchored hdir).resolve_right fun hbelow => ?_
  obtain ⟨hup, hlength⟩ := hbelow
  rcases partOf_cases path with ⟨other, parent, hname, hparent, hpart⟩ | ⟨hname, -⟩
  · have hends := Path.leadsTo_push (Path.ascend path.isAbsolute (Path.settle above))
      (slashless_partName (slashless_of_fileName? hname)) (partName_ne_nil other)
      (isDots_partName other)
    rw [Path.parent?_of_backward hbackward] at hparent
    rw [Option.some.inj hparent, ← hpart, ← Option.some.inj hparent,
      Path.isAbsolute_ascend hbackward, Path.names_ascend hbackward] at hends
    rw [hgoal, goal_eq_spot hends, spot, (Path.sameWay_settle above).seat, List.length_append,
      List.length_singleton, Path.startOf_eq] at hlength
    omega
  · rw [Path.fileName?, hbackward] at hname
    simp only [ite_eq_left_iff, reduceCtorEq, imp_false, Decidable.not_not] at hname
    exact hname.elim (ne_dot_of_parent hbackward htext) hup

/-- If there is a file at the sibling of a path, the parent is a directory. -/
theorem isDirectory_of_isFile_partOf (hparent : path.parent? = some parent)
    (htext : parent.text ≠ []) (hfile : tree.isFile (partOf path) = true) :
    tree.isDirectory parent = true := by
  rcases partOf_cases path with ⟨name, other, hname, hother, hpart⟩ | ⟨hname, hpart⟩
  · obtain rfl : other = parent := Option.some.inj (hother.symm.trans hparent)
    have hslash := slashless_partName (slashless_of_fileName? hname)
    have hleads := Path.leadsTo_push other hslash (partName_ne_nil name) (isDots_partName name)
    rw [hpart] at hfile
    obtain ⟨hcheck, hopen, -⟩ := (isFile_iff hleads).mp hfile
    have hbegins := Path.prefix_push other hslash (partName_ne_nil name)
    exact isDirectory_iff.mpr ⟨Path.checkPath_of_prefix hcheck hbegins htext, hopen⟩
  · obtain ⟨segment, above, hbackward, rfl⟩ := Path.backward_of_parent? hparent
    have hslash : '/' ∉ partName [] := slashless_partName List.not_mem_nil
    have hleads := Path.leadsTo_push path hslash (partName_ne_nil []) (isDots_partName [])
    rw [hpart] at hfile
    obtain ⟨hcheck, hopen, -⟩ := (isFile_iff hleads).mp hfile
    have hbegins := (Path.text_ascend_initial hbackward).trans
      (Path.prefix_push path hslash (partName_ne_nil []))
    obtain ⟨rest, hrest⟩ := (Path.names_ascend_initial hbackward).trans
      ((List.prefix_append _ _).trans (Path.names_of_backward hbackward).2)
    rw [← hrest, opens_append] at hopen
    refine isDirectory_iff.mpr ⟨Path.checkPath_of_prefix hcheck hbegins htext, ?_⟩
    rw [Path.startOf_eq, Path.isAbsolute_ascend hbackward]
    exact hopen.1

end Storage

end ClassSkeleton
