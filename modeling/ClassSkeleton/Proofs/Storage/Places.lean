import ClassSkeleton.Proofs.Storage.Pair

/-!
Where the files of an entity are. The segments of a name between dots become directories below
the root, the last one gets an ending, and nothing else about the path of a file depends on the
entity. Names without a separator keep every directory of the package and every file in its place.
-/
namespace ClassSkeleton

open ClassSkeleton.Tree

namespace Path

variable {path : Path} {segment : Text}

theorem segments_push (path : Path) (hslash : '/' ∉ segment) (hne : segment ≠ []) :
    ∃ front, (path.push segment).segments = front ++ [segment] ∧
      front.filter (fun name => !name.isEmpty) = path.names := by
  have hroot := not_rooted hslash hne
  have hself := Text.splitOn_eq_self hslash
  unfold push
  simp only [hroot, Bool.false_eq_true, if_false]
  split
  · rename_i hend
    rcases (Bool.or_eq_true _ _).mp hend with hempty | hsuffix
    · obtain htext := List.isEmpty_iff.mp hempty
      refine ⟨[], by simp [segments, htext, hself], ?_⟩
      simp [names, segments, htext, Text.splitOn, Text.splitFrom]
    · obtain ⟨front, hfront⟩ := List.isSuffixOf_iff_suffix.mp hsuffix
      refine ⟨Text.splitOn ['/'] front, ?_, ?_⟩
      · rw [segments, ← hfront, List.append_assoc, List.singleton_append,
          Text.splitOn_append_char, hself]
      · rw [names, segments, ← hfront, Text.splitOn_append_char, List.filter_append]
        simp [Text.splitOn, Text.splitFrom]
  · exact ⟨path.segments, by rw [segments, Text.splitOn_append_char, hself, ← segments], rfl⟩

theorem names_push (path : Path) (hslash : '/' ∉ segment) (hne : segment ≠ []) :
    (path.push segment).names = path.names ++ [segment] := by
  obtain ⟨front, hfront, hnames⟩ := segments_push path hslash hne
  rw [names, hfront, List.filter_append, hnames]
  simp [hne]

theorem isAbsolute_push (path : Path) (hslash : '/' ∉ segment) (hne : segment ≠ []) :
    (path.push segment).isAbsolute = path.isAbsolute := by
  have hroot := not_rooted hslash hne
  unfold push isAbsolute
  simp only [hroot, Bool.false_eq_true, if_false]
  cases htext : path.text with
  | nil => simp [hroot]
  | cons c rest =>
    split
    · simp [List.isPrefixOf]
    · simp [List.isPrefixOf]

theorem names_foldl_push (root : Path) {segments : List Text}
    (h : ∀ segment ∈ segments, '/' ∉ segment ∧ segment ≠ []) :
    (segments.foldl push root).names = root.names ++ segments := by
  induction segments generalizing root with
  | nil => simp
  | cons segment segments ih =>
    obtain ⟨hslash, hne⟩ := h segment List.mem_cons_self
    rw [List.foldl_cons, ih _ fun other ho => h other (List.mem_cons_of_mem _ ho),
      names_push root hslash hne, List.append_assoc, List.singleton_append]

theorem isAbsolute_foldl_push (root : Path) {segments : List Text}
    (h : ∀ segment ∈ segments, '/' ∉ segment ∧ segment ≠ []) :
    (segments.foldl push root).isAbsolute = root.isAbsolute := by
  induction segments generalizing root with
  | nil => rfl
  | cons segment segments ih =>
    obtain ⟨hslash, hne⟩ := h segment List.mem_cons_self
    rw [List.foldl_cons, ih _ fun other ho => h other (List.mem_cons_of_mem _ ho),
      isAbsolute_push root hslash hne]

theorem prefix_push (path : Path) (hslash : '/' ∉ segment) (hne : segment ≠ []) :
    path.text <+: (path.push segment).text := by
  unfold push
  simp only [not_rooted hslash hne, Bool.false_eq_true, if_false]
  split
  · exact List.prefix_append _ _
  · exact List.prefix_append _ _

theorem prefix_foldl_push (root : Path) {segments : List Text}
    (h : ∀ segment ∈ segments, '/' ∉ segment ∧ segment ≠ []) :
    root.text <+: (segments.foldl push root).text := by
  induction segments generalizing root with
  | nil => exact List.prefix_rfl
  | cons segment segments ih =>
    obtain ⟨hslash, hne⟩ := h segment List.mem_cons_self
    exact (prefix_push root hslash hne).trans
      (ih _ fun other ho => h other (List.mem_cons_of_mem _ ho))

/-- A name without a dot has no extension yet. -/
theorem splitExtension_of_dotless (h : '.' ∉ segment) :
    splitExtension segment = (segment, none) := by
  rw [splitExtension, Text.splitOn_eq_self h]
  rfl

theorem isDots_of_dotless (hdot : '.' ∉ segment) (hne : segment ≠ []) (ending : Text) :
    isDots (segment ++ ending) = false := by
  obtain ⟨c, rest, rfl⟩ := List.exists_cons_of_ne_nil hne
  have hc : c ≠ '.' := fun hc => hdot (by simp [hc])
  simp [isDots, hc]

theorem Ends.withExtension {above : List Text} (h : path.Ends above segment) (hdot : '.' ∉ segment)
    {extension : Text} (hslash : '/' ∉ extension) (hne : extension ≠ []) :
    (path.withExtension extension).Ends above (segment ++ '.' :: extension) ∧
      (path.withExtension extension).isAbsolute = path.isAbsolute := by
  have htext : (path.withExtension extension).text =
      Text.join ['/'] ((segment ++ '.' :: extension) :: above).reverse := by
    rw [Path.withExtension, h.fileName?, h.backward]
    simp [splitExtension_of_dotless hdot, hne, Text.join_concat_eq_flatMap]
  have hslashes : ∀ piece ∈ (segment ++ '.' :: extension) :: above, '/' ∉ piece := by
    intro piece hpiece
    rcases List.mem_cons.mp hpiece with rfl | hpiece
    · have hsegment := h.slashless segment List.mem_cons_self
      simp [hsegment, hslash]
    · exact h.slashless piece (List.mem_cons_of_mem _ hpiece)
  have hends : (path.withExtension extension).Ends above (segment ++ '.' :: extension) := by
    refine ⟨?_, isDots_of_dotless hdot h.nonempty _, by simp⟩
    change Text.splitOn ['/'] (path.withExtension extension).text = _
    rw [htext]
    exact Text.splitOn_join (by simp) fun piece hpiece =>
      hslashes piece (List.mem_reverse.mp hpiece)
  refine ⟨hends, ?_⟩
  rw [Bool.eq_iff_iff, ← hends.rooted, ← h.rooted]
  by_cases habove : above = []
  · subst habove
    simp [h.nonempty]
  · rw [List.getLast?_cons_of_ne_nil habove, List.getLast?_cons_of_ne_nil habove]

end Path

namespace Entity

def folders (entity : Entity) : List Text := entity.segments.dropLast

def fileName (entity : Entity) (extension : Text) : Text :=
  entity.shortName ++ '.' :: extension

/-- Backward segments above the files of the entity. -/
def above (entity : Entity) (root : Path) : List Text :=
  (entity.segments.foldl Path.push root).segments.reverse.tail

variable {entity : Entity}

theorem segments_ne_nil (entity : Entity) : entity.segments ≠ [] :=
  Text.splitFrom_ne_nil _ _ _

theorem dotless_of_mem_segments {segment : Text} (h : segment ∈ entity.segments) : '.' ∉ segment :=
  Text.not_mem_of_mem_splitOn h

theorem ne_nil_of_mem_segments {segment : Text} (h : segment ∈ entity.segments) : segment ≠ [] := by
  have hqualified := entity.qualified
  rw [isQualifiedName, List.all_eq_true] at hqualified
  rintro rfl
  have hblank := hqualified [] h
  simp [Text.trim, Text.trimStart, Text.trimEnd] at hblank

theorem slashless_of_mem_segments (hname : '/' ∉ entity.name) {segment : Text}
    (h : segment ∈ entity.segments) : '/' ∉ segment := by
  intro hc
  apply hname
  rw [← Text.join_splitOn (List.cons_ne_nil '.' []) entity.name]
  exact Text.mem_join_of_mem _ h hc

theorem segments_eq (entity : Entity) : entity.segments = entity.folders ++ [entity.shortName] := by
  rw [folders, shortName, List.getLastD_eq_getLast?,
    List.getLast?_eq_some_getLast entity.segments_ne_nil]
  exact (List.dropLast_concat_getLast entity.segments_ne_nil).symm

theorem shortName_mem (entity : Entity) : entity.shortName ∈ entity.segments := by
  rw [entity.segments_eq]
  simp

theorem mem_segments_of_mem_folders {segment : Text} (h : segment ∈ entity.folders) :
    segment ∈ entity.segments := (List.dropLast_prefix _).subset h

theorem isDots_of_mem_folders {segment : Text} (h : segment ∈ entity.folders) :
    isDots segment = false := by
  have hmem := mem_segments_of_mem_folders h
  have hdots := Path.isDots_of_dotless (dotless_of_mem_segments hmem)
    (ne_nil_of_mem_segments hmem) []
  rwa [List.append_nil] at hdots

theorem name_eq_of_segments {other : Entity} (h : entity.segments = other.segments) :
    entity.name = other.name := by
  rw [← Text.join_splitOn (List.cons_ne_nil '.' []) entity.name,
    ← Text.join_splitOn (List.cons_ne_nil '.' []) other.name]
  exact congrArg _ h

theorem proper_segments (hname : '/' ∉ entity.name) :
    ∀ segment ∈ entity.segments, '/' ∉ segment ∧ segment ≠ [] := fun _ hs =>
  ⟨slashless_of_mem_segments hname hs, ne_nil_of_mem_segments hs⟩

theorem segments_pushed (entity : Entity) (root : Path) (hname : '/' ∉ entity.name) :
    ∃ front, (entity.segments.foldl Path.push root).segments = front ++ [entity.shortName] ∧
      entity.above root = front.reverse ∧
      front.filter (fun name => !name.isEmpty) = root.names ++ entity.folders := by
  have hsegments := proper_segments hname
  have hshort := hsegments _ entity.shortName_mem
  have hfold : entity.segments.foldl Path.push root =
      (entity.folders.foldl Path.push root).push entity.shortName := by
    rw [entity.segments_eq, List.foldl_append]
    rfl
  obtain ⟨front, hfront, hnames⟩ :=
    Path.segments_push (entity.folders.foldl Path.push root) hshort.1 hshort.2
  refine ⟨front, by rw [hfold, hfront], ?_, ?_⟩
  · rw [above, hfold, hfront]
    simp
  · rw [hnames, Path.names_foldl_push root fun segment hs =>
      hsegments segment (mem_segments_of_mem_folders hs)]

theorem pushed_ends (entity : Entity) (root : Path) (hname : '/' ∉ entity.name) :
    (entity.segments.foldl Path.push root).Ends (entity.above root) entity.shortName := by
  obtain ⟨front, hfront, habove, -⟩ := segments_pushed entity root hname
  have hdot := dotless_of_mem_segments entity.shortName_mem
  have hne := ne_nil_of_mem_segments entity.shortName_mem
  refine ⟨?_, ?_, hne⟩
  · rw [hfront, habove]
    simp
  · simpa using Path.isDots_of_dotless hdot hne []

/-- The path of a file of the entity leads through the names of the root and the directories of
the package. -/
theorem localPath_ends (entity : Entity) (root : Path) (hname : '/' ∉ entity.name)
    {extension : Text} (hslash : '/' ∉ extension) (hne : extension ≠ []) :
    (entity.localPath root extension).Ends (entity.above root) (entity.fileName extension) ∧
      (entity.localPath root extension).isAbsolute = root.isAbsolute := by
  obtain ⟨hlocal, habsolute⟩ := (pushed_ends entity root hname).withExtension
    (dotless_of_mem_segments entity.shortName_mem) hslash hne
  exact ⟨hlocal, habsolute.trans (Path.isAbsolute_foldl_push root (proper_segments hname))⟩

theorem prefix_localPath (entity : Entity) (root : Path) (hname : '/' ∉ entity.name)
    {extension : Text} (hslash : '/' ∉ extension) (hne : extension ≠ []) :
    root.text <+: (entity.localPath root extension).text := by
  have hpushed := pushed_ends entity root hname
  have hlocal := (localPath_ends entity root hname hslash hne).1
  have htext : (entity.localPath root extension).text =
      (entity.segments.foldl Path.push root).text ++ '.' :: extension := by
    rw [hlocal.text, hpushed.text, List.reverse_cons, List.reverse_cons, fileName,
      Text.join_append_ending]
  rw [htext]
  exact (Path.prefix_foldl_push root (proper_segments hname)).trans (List.prefix_append _ _)

theorem named_above (entity : Entity) (root : Path) (hname : '/' ∉ entity.name) :
    Path.named (entity.above root) = root.names ++ entity.folders := by
  obtain ⟨front, -, habove, hnames⟩ := segments_pushed entity root hname
  rw [habove, Path.named, List.reverse_reverse, hnames]

end Entity

end ClassSkeleton
