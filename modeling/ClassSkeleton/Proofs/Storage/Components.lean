import ClassSkeleton.Proofs.Storage.Places
import Mathlib.Data.List.Infix

/-!
What a path names. Two paths are the same if they have the same components: a mark for the root,
and the segments that are no fillers. A path lies above another one if its components are an
initial part of those of the other.
-/
namespace ClassSkeleton

namespace Path

def sift : List Text → List Text
  | [] => []
  | segment :: above => if isFiller segment above then sift above else segment :: sift above

def rootMark (absolute : Bool) : List Text := if absolute then [['/']] else []

def components (path : Path) : List Text :=
  rootMark path.isAbsolute ++ (sift path.segments.reverse).reverse

/-- The first path is a proper ancestor of the second. -/
def IsAbove (dir path : Path) : Prop :=
  dir.components <+: path.components ∧ dir.components ≠ path.components

instance (dir path : Path) : Decidable (dir.IsAbove path) := inferInstanceAs (Decidable (_ ∧ _))

example : (Path.mk "./a/./b//..".toList).components = (Path.mk "./a/b/../.".toList).components := by
  decide

variable {path : Path} {segment name : Text} {above : List Text}

theorem sift_of_not_filler (h : isFiller segment above = false) :
    sift (segment :: above) = segment :: sift above := by
  rw [sift, if_neg (by simp [h])]

theorem sift_of_filler (h : isFiller segment above = true) :
    sift (segment :: above) = sift above := by
  rw [sift, if_pos h]

theorem sift_settle (backward : List Text) : sift (settle backward) = sift backward := by
  induction backward with
  | nil => rfl
  | cons segment above ih =>
    by_cases hfiller : isFiller segment above = true
    · rw [settle, if_pos hfiller, sift_of_filler hfiller, ih]
    · rw [settle, if_neg hfiller]

theorem components_push (path : Path) (hslash : '/' ∉ segment) (hne : segment ≠ [])
    (hdots : Tree.isDots segment = false) :
    (path.push segment).components = path.components ++ [segment] := by
  have hself := Text.splitOn_eq_self hslash
  have hfiller : ∀ front : List Text, isFiller segment front = false := by
    intro front
    simp only [Tree.isDots, Bool.or_eq_false_iff, beq_eq_false_iff_ne] at hdots
    simp [isFiller, hne, hdots.1]
  suffices hfront : ∃ front, (path.push segment).segments = front ++ [segment] ∧
      sift front.reverse = sift path.segments.reverse by
    obtain ⟨front, hfront, hsift⟩ := hfront
    rw [components, components, isAbsolute_push path hslash hne, hfront, List.reverse_concat,
      sift_of_not_filler (hfiller _), List.reverse_cons, hsift, List.append_assoc]
  unfold push
  simp only [not_rooted hslash hne, Bool.false_eq_true, if_false]
  split
  · rename_i hend
    rcases (Bool.or_eq_true _ _).mp hend with hempty | hsuffix
    · have htext := List.isEmpty_iff.mp hempty
      refine ⟨[], by simp [segments, htext, hself], ?_⟩
      rw [segments, htext]
      decide
    · obtain ⟨front, hfront⟩ := List.isSuffixOf_iff_suffix.mp hsuffix
      have hempty : ∀ front : List Text, sift ([] :: front) = sift front := fun front =>
        sift_of_filler rfl
      refine ⟨Text.splitOn ['/'] front, ?_, ?_⟩
      · rw [segments, ← hfront, List.append_assoc, List.singleton_append,
          Text.splitOn_append_char, hself]
      · rw [segments, ← hfront, Text.splitOn_append_char, List.reverse_append]
        exact (hempty _).symm
  · exact ⟨path.segments, by rw [segments, Text.splitOn_append_char, hself, ← segments], rfl⟩

theorem components_foldl_push (root : Path) {segments : List Text}
    (h : ∀ segment ∈ segments, '/' ∉ segment ∧ segment ≠ [] ∧ Tree.isDots segment = false) :
    (segments.foldl push root).components = root.components ++ segments := by
  induction segments generalizing root with
  | nil => simp
  | cons segment segments ih =>
    obtain ⟨hslash, hne, hdots⟩ := h segment List.mem_cons_self
    rw [List.foldl_cons, ih _ fun other ho => h other (List.mem_cons_of_mem _ ho),
      components_push root hslash hne hdots, List.append_assoc, List.singleton_append]

theorem Ends.components (h : path.Ends above name) :
    path.components = rootMark path.isAbsolute ++ (sift above).reverse ++ [name] := by
  rw [Path.components, h.segments, List.reverse_reverse, sift_of_not_filler h.not_filler,
    List.reverse_cons, List.append_assoc]

theorem components_join (hslash : ∀ other ∈ segment :: above, '/' ∉ other) :
    (Path.mk (Text.join ['/'] (segment :: above).reverse)).components =
      rootMark (Path.mk (Text.join ['/'] (segment :: above).reverse)).isAbsolute ++
        (sift (segment :: above)).reverse := by
  have hsegments : (Path.mk (Text.join ['/'] (segment :: above).reverse)).segments =
      (segment :: above).reverse :=
    Text.splitOn_join (by simp) fun piece hpiece => hslash piece (List.mem_reverse.mp hpiece)
  rw [components, hsegments, List.reverse_reverse]

/-- The components of a path without the last ones, then without one more, and so on. -/
theorem components_upward {absolute : Bool} {backward : List Text}
    (hslash : ∀ segment ∈ backward, '/' ∉ segment)
    (hroot : backward ≠ [] → (backward.getLast? = some [] ↔ absolute = true)) :
    (upward absolute backward).map components =
      (sift backward).tails.map fun back => rootMark absolute ++ back.reverse := by
  induction backward with
  | nil => cases absolute <;> rfl
  | cons segment above ih =>
    have hbelow := ih (fun other ho => hslash other (List.mem_cons_of_mem _ ho)) fun habove => by
      rw [← hroot (by simp), List.getLast?_cons_of_ne_nil habove]
    by_cases hfiller : isFiller segment above = true
    · rw [upward, if_pos hfiller, sift_of_filler hfiller, hbelow]
    · have hnot : isFiller segment above = false := by simpa using hfiller
      have habsolute : (Path.mk (Text.join ['/'] (segment :: above).reverse)).isAbsolute =
          absolute := by
        rw [Bool.eq_iff_iff, ← rooted_join hslash (ne_nil_of_not_filler hnot)]
        exact hroot (by simp)
      rw [upward, if_neg hfiller, List.map_cons, hbelow, components_join hslash, habsolute,
        sift_of_not_filler hnot, List.tails_cons, List.map_cons]

theorem components_of_backward (h : path.backward = segment :: above) :
    path.components = rootMark path.isAbsolute ++ (sift above).reverse ++ [segment] := by
  rw [components, ← sift_settle, ← backward, h, sift_of_not_filler (not_filler_of_backward h),
    List.reverse_cons, List.append_assoc]

theorem isAbove_of_mem_ancestors {dir : Path} (h : dir ∈ path.ancestors.tail) :
    dir.IsAbove path := by
  unfold ancestors at h
  cases hbackward : path.backward with
  | nil => simp [hbackward] at h
  | cons segment above =>
    simp only [hbackward, List.tail_cons] at h
    have hslash : ∀ other ∈ above, '/' ∉ other := fun other ho =>
      slashless_of_backward hbackward other (List.mem_cons_of_mem _ ho)
    have hself := components_of_backward hbackward
    have hmem := List.mem_map_of_mem (f := components) h
    rw [components_upward hslash fun habove => by
      rw [← rooted_of_backward hbackward, List.getLast?_cons_of_ne_nil habove]] at hmem
    obtain ⟨back, hback, hcomponents⟩ := List.mem_map.mp hmem
    have habove : dir.components <+: rootMark path.isAbsolute ++ (sift above).reverse := by
      rw [← hcomponents]
      exact (List.prefix_append_right_inj _).mpr
        (List.reverse_prefix.mpr ((List.mem_tails _ _).mp hback))
    refine ⟨hself ▸ habove.trans (List.prefix_append _ _), fun hsame => ?_⟩
    have hlength := habove.length_le
    rw [hsame, hself, List.length_append, List.length_singleton] at hlength
    omega

theorem Ends.components_ascend (h : path.Ends above name) :
    (ascend path.isAbsolute (settle above)).components =
      rootMark path.isAbsolute ++ (sift above).reverse := by
  rw [← sift_settle above]
  rcases settle_cases above with hbase | ⟨segment, rest, hbase, hfiller⟩
  · rw [hbase, ascend, if_pos rfl]
    cases path.isAbsolute <;> rfl
  · have hsuffix : segment :: rest <:+ above := hbase ▸ settle_suffix above
    have hslash : ∀ other ∈ segment :: rest, '/' ∉ other := fun other ho =>
      h.slashless other (List.mem_cons_of_mem _ (hsuffix.subset ho))
    have habsolute : (Path.mk (Text.join ['/'] (segment :: rest).reverse)).isAbsolute =
        path.isAbsolute := by
      rw [Bool.eq_iff_iff, ← rooted_join hslash (ne_nil_of_not_filler hfiller), ← hbase]
      exact h.settled (by simp [hbase])
    rw [hbase, ascend, if_neg (by simp), components_join hslash, habsolute]

/-- The sibling that a file is written to first differs from it in the last component alone. -/
theorem Ends.components_partOf (h : path.Ends above name) :
    (Storage.partOf path).components =
      rootMark path.isAbsolute ++ (sift above).reverse ++ [Storage.partName name] := by
  have hslash : '/' ∉ Storage.partName name := by
    simp [Storage.partName, h.slashless name List.mem_cons_self]
  rw [Storage.partOf_eq h, withFileName, h.fileName?, h.parent?, components_push _ hslash
    (Storage.partName_ne_nil name) (Storage.isDots_partName name), h.components_ascend]

end Path

namespace Entity

variable {entity : Entity}

theorem components_above (root : Path) (hname : '/' ∉ entity.name) :
    Path.rootMark root.isAbsolute ++ (Path.sift (entity.above root)).reverse =
      root.components ++ entity.folders := by
  have hproper : ∀ segment ∈ entity.segments,
      '/' ∉ segment ∧ segment ≠ [] ∧ Tree.isDots segment = false := by
    intro segment hsegment
    obtain ⟨hslash, hne⟩ := proper_segments hname segment hsegment
    have hdots := Path.isDots_of_dotless (dotless_of_mem_segments hsegment) hne []
    exact ⟨hslash, hne, by rwa [List.append_nil] at hdots⟩
  have hpushed := Path.components_foldl_push root hproper
  rw [(pushed_ends entity root hname).components,
    Path.isAbsolute_foldl_push root (proper_segments hname)] at hpushed
  have hlast : root.components ++ entity.segments =
      root.components ++ entity.folders ++ [entity.shortName] := by
    rw [List.append_assoc, ← entity.segments_eq]
  exact List.append_cancel_right (hpushed.trans hlast)

end Entity

end ClassSkeleton
