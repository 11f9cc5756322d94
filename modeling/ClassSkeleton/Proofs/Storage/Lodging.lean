import ClassSkeleton.Proofs.Storage.Components

/-!
Where the files of an entity are when its name has separators in it. A segment that begins with a
separator replaces the path that it is pushed to, so the files of an entity lie below the root or,
if its name has such a segment, below the top of the tree, and either way the directories that
lead to them are no dots. An entity whose path comes to nothing but separators has no files.
-/
namespace ClassSkeleton

open ClassSkeleton.Tree

namespace Path

variable {path : Path} {segment : Text}

theorem names_join_slash (front rest : Text) :
    (Path.mk (front ++ '/' :: rest)).names = (Path.mk front).names ++ (Path.mk rest).names := by
  rw [names, segments, Text.splitOn_append_char, List.filter_append]
  rfl

theorem push_of_absolute (path : Path) (h : (Path.mk segment).isAbsolute = true) :
    path.push segment = ⟨segment⟩ := if_pos h

theorem push_of_relative (path : Path) (h : (Path.mk segment).isAbsolute = false) :
    path.push segment =
      if path.text.isEmpty || ['/'].isSuffixOf path.text then ⟨path.text ++ segment⟩
      else ⟨path.text ++ '/' :: segment⟩ := if_neg (Bool.eq_false_iff.mp h)

theorem names_push_segment (path : Path) (segment : Text) :
    (path.push segment).names =
      (if (Path.mk segment).isAbsolute then [] else path.names) ++ (Path.mk segment).names := by
  have hempty : (Path.mk []).names = [] := rfl
  cases hrooted : (Path.mk segment).isAbsolute with
  | true => rw [push_of_absolute path hrooted, if_pos rfl, List.nil_append]
  | false =>
    rw [push_of_relative path hrooted]
    simp only [Bool.false_eq_true, if_false]
    split
    · rename_i hend
      rcases (Bool.or_eq_true _ _).mp hend with htext | hsuffix
      · rw [List.isEmpty_iff] at htext
        obtain ⟨text⟩ := path
        obtain rfl : text = [] := htext
        rw [hempty]
        rfl
      · obtain ⟨front, hfront⟩ := List.isSuffixOf_iff_suffix.mp hsuffix
        obtain ⟨text⟩ := path
        obtain rfl : front ++ ['/'] = text := hfront
        rw [List.append_assoc, List.singleton_append, names_join_slash, names_join_slash, hempty,
          List.append_nil]
    · exact names_join_slash path.text segment

theorem isAbsolute_push_segment (path : Path) (segment : Text) :
    (path.push segment).isAbsolute = ((Path.mk segment).isAbsolute || path.isAbsolute) := by
  cases hrooted : (Path.mk segment).isAbsolute with
  | true => rw [push_of_absolute path hrooted, hrooted, Bool.true_or]
  | false =>
    rw [push_of_relative path hrooted, Bool.false_or]
    obtain ⟨text⟩ := path
    cases text with
    | nil => simpa [isAbsolute] using hrooted
    | cons c rest =>
      split
      · simp [isAbsolute, List.isPrefixOf]
      · simp [isAbsolute, List.isPrefixOf]

theorem foldl_push_of_relative (root : Path) {segments : List Text}
    (h : ∀ segment ∈ segments, (Path.mk segment).isAbsolute = false) :
    (segments.foldl push root).names =
        root.names ++ segments.flatMap (fun segment => (Path.mk segment).names) ∧
      (segments.foldl push root).isAbsolute = root.isAbsolute := by
  induction segments generalizing root with
  | nil => simp
  | cons segment segments ih =>
    have hsegment := h segment List.mem_cons_self
    obtain ⟨hnames, habsolute⟩ :=
      ih (root.push segment) fun other ho => h other (List.mem_cons_of_mem _ ho)
    rw [List.foldl_cons, hnames, habsolute, names_push_segment, isAbsolute_push_segment, hsegment,
      List.flatMap_cons, List.append_assoc]
    exact ⟨rfl, rfl⟩

/-- Behind a segment that begins with a separator the root is forgotten. -/
theorem foldl_push_of_rooted {segments : List Text}
    (h : ∃ segment ∈ segments, (Path.mk segment).isAbsolute = true) (root other : Path) :
    segments.foldl push root = segments.foldl push other ∧
      (segments.foldl push root).isAbsolute = true := by
  induction segments generalizing root other with
  | nil => simp at h
  | cons segment segments ih =>
    rw [List.foldl_cons, List.foldl_cons]
    by_cases hlater : ∃ segment ∈ segments, (Path.mk segment).isAbsolute = true
    · exact ih hlater _ _
    · have hrest : ∀ segment ∈ segments, (Path.mk segment).isAbsolute = false := by
        simpa using hlater
      have hrooted : (Path.mk segment).isAbsolute = true := by
        obtain ⟨found, hfound, habsolute⟩ := h
        rcases List.mem_cons.mp hfound with rfl | hfound
        · exact habsolute
        · exact absurd ⟨found, hfound, habsolute⟩ hlater
      rw [push_of_absolute root hrooted, push_of_absolute other hrooted]
      exact ⟨rfl, (foldl_push_of_relative ⟨segment⟩ hrest).2.trans hrooted⟩

theorem mem_names_foldl_push {name : Text} {root : Path} {segments : List Text}
    (h : name ∈ (segments.foldl push root).names) :
    name ∈ root.names ∨ ∃ segment ∈ segments, name ∈ (Path.mk segment).names := by
  induction segments generalizing root with
  | nil => exact .inl h
  | cons segment segments ih =>
    rcases ih h with hpushed | ⟨found, hfound, hname⟩
    · rw [names_push_segment] at hpushed
      rcases List.mem_append.mp hpushed with hpushed | hpushed
      · split at hpushed
        · exact absurd hpushed List.not_mem_nil
        · exact .inl hpushed
      · exact .inr ⟨segment, List.mem_cons_self, hpushed⟩
    · exact .inr ⟨found, List.mem_cons_of_mem _ hfound, hname⟩

theorem names_ne_nil (htext : path.text ≠ []) (h : path.isAbsolute = false) : path.names ≠ [] := by
  obtain ⟨first, rest, hsegments⟩ := List.exists_cons_of_ne_nil
    (show path.segments ≠ [] from Text.splitFrom_ne_nil _ _ _)
  have hfirst : first ≠ [] := by
    rintro rfl
    have habsolute : path.isAbsolute = true :=
      (rooted_segments htext).mp (by rw [hsegments, List.head?_cons])
    rw [h] at habsolute
    cases habsolute
  rw [names, hsegments, List.filter_cons_of_pos (by simpa using hfirst)]
  exact List.cons_ne_nil _ _

theorem exists_backward {front : List Text} {last : Text} (hnames : path.names = front ++ [last])
    (hlast : isDots last = false) :
    ∃ above, path.backward = last :: above ∧ named above = front := by
  have hsettle : ∀ backward : List Text, named backward = front ++ [last] →
      ∃ above, settle backward = last :: above ∧ named above = front := by
    intro backward hnamed
    induction backward with
    | nil => simp [named] at hnamed
    | cons segment above ih =>
      rw [named_cons] at hnamed
      by_cases hempty : segment = []
      · subst hempty
        rw [settle, if_pos (by simp [isFiller])]
        exact ih (by simpa using hnamed)
      · rw [if_neg (by simpa using hempty)] at hnamed
        obtain ⟨habove, hsegment⟩ := List.append_inj' hnamed rfl
        obtain rfl := List.singleton_inj.mp hsegment
        rw [isDots_eq_false_iff] at hlast
        exact ⟨above, settle_of_not_filler (by simp [isFiller, hempty, hlast.1]), habove⟩
  refine hsettle path.segments.reverse ?_
  rw [named, List.reverse_reverse]
  exact hnames

theorem backward_eq_nil (hnames : path.names = []) : path.backward = [] := by
  have hsettle : ∀ backward : List Text, named backward = [] → settle backward = [] := by
    intro backward hnamed
    induction backward with
    | nil => rfl
    | cons segment above ih =>
      rw [named_cons, List.append_eq_nil_iff] at hnamed
      have hempty : segment = [] := by simpa using hnamed.2
      rw [settle, if_pos (by simp [isFiller, hempty])]
      exact ih hnamed.1
  refine hsettle path.segments.reverse ?_
  rw [named, List.reverse_reverse]
  exact hnames

theorem ends_of_backward {above : List Text} (h : path.backward = segment :: above)
    (hdot : '.' ∉ segment) (hne : segment ≠ []) {extension : Text} (hslash : '/' ∉ extension)
    (hextension : extension ≠ []) :
    (path.withExtension extension).Ends above (segment ++ '.' :: extension) ∧
      (path.withExtension extension).isAbsolute = path.isAbsolute := by
  have hmem : ∀ piece ∈ segment :: above, piece ∈ path.segments := fun piece hpiece =>
    List.mem_reverse.mp ((backward_suffix h).subset hpiece)
  have hslashes : ∀ piece ∈ (segment ++ '.' :: extension) :: above, '/' ∉ piece := by
    intro piece hpiece
    rcases List.mem_cons.mp hpiece with rfl | hpiece
    · have hsegment : '/' ∉ segment :=
        Text.not_mem_of_mem_splitOn (hmem segment List.mem_cons_self)
      simp [hsegment, hslash]
    · exact Text.not_mem_of_mem_splitOn (hmem piece (List.mem_cons_of_mem _ hpiece))
  have hproper : isDots segment = false := by simpa using isDots_of_dotless hdot hne []
  have hname : path.fileName? = some segment := by
    rw [isDots_eq_false_iff] at hproper
    rw [fileName?, h]
    simp [hproper.1, hproper.2]
  have htext : (path.withExtension extension).text =
      Text.join ['/'] ((segment ++ '.' :: extension) :: above).reverse := by
    rw [withExtension, hname, h]
    simp [splitExtension_of_dotless hdot, hextension, Text.join_concat_eq_flatMap]
  have hends : (path.withExtension extension).Ends above (segment ++ '.' :: extension) := by
    refine ⟨?_, isDots_of_dotless hdot hne _, by simp⟩
    rw [segments, htext]
    exact Text.splitOn_join (by simp) fun piece hpiece =>
      hslashes piece (List.mem_reverse.mp hpiece)
  refine ⟨hends, ?_⟩
  rw [Bool.eq_iff_iff, ← hends.rooted, ← rooted_of_backward h]
  by_cases habove : above = []
  · subst habove
    simp [hne]
  · rw [List.getLast?_cons_of_ne_nil habove, List.getLast?_cons_of_ne_nil habove]

end Path

namespace Entity

/-- The files of the entity lie in a directory that is reached through `folders` from the place of
`base`, under the name `stem` and their extension. -/
structure LodgesAt (entity : Entity) (root base : Path) (above folders : List Text) (stem : Text) :
    Prop where
  named : Path.named above = base.names ++ folders
  proper : ∀ folder ∈ folders, isDots folder = false
  path : ∀ extension : Text, '/' ∉ extension → extension ≠ [] →
    (entity.localPath root extension).Ends above (stem ++ '.' :: extension) ∧
      (entity.localPath root extension).isAbsolute = base.isAbsolute

variable {entity : Entity}

/-- The names between the separators in the segments of the entity. -/
def steps (entity : Entity) : List Text :=
  entity.segments.flatMap fun segment => (Path.mk segment).names

theorem dotless_of_mem_names {segment name : Text} (hsegment : segment ∈ entity.segments)
    (hname : name ∈ (Path.mk segment).names) : '.' ∉ name ∧ name ≠ [] := by
  refine ⟨fun hc => ?_, by simpa using (List.mem_filter.mp hname).2⟩
  exact dotless_of_mem_segments hsegment (Path.mem_text_of_mem_names hname hc)

theorem lodgesAt_of_names {root base : Path} {names : List Text} (hne : names ≠ [])
    (hdots : ∀ name ∈ names, '.' ∉ name ∧ name ≠ [])
    (hnames : (entity.segments.foldl Path.push root).names = base.names ++ names)
    (habsolute : (entity.segments.foldl Path.push root).isAbsolute = base.isAbsolute) :
    ∃ above, entity.LodgesAt root base above names.dropLast (names.getLast hne) := by
  have hproper : ∀ name ∈ names, isDots name = false := by
    intro name hname
    obtain ⟨hdot, hempty⟩ := hdots name hname
    simpa using Path.isDots_of_dotless hdot hempty []
  have hlast := List.getLast_mem hne
  rw [← List.dropLast_concat_getLast hne, ← List.append_assoc] at hnames
  obtain ⟨above, hbackward, hnamed⟩ := Path.exists_backward hnames (hproper _ hlast)
  refine ⟨above, hnamed, fun folder hfolder => hproper folder (List.mem_of_mem_dropLast hfolder),
    fun extension hslash hextension => ?_⟩
  obtain ⟨hdot, hempty⟩ := hdots _ hlast
  obtain ⟨hends, hsame⟩ := Path.ends_of_backward hbackward hdot hempty hslash hextension
  exact ⟨hends, hsame.trans habsolute⟩

theorem isFile_of_names_nil {path : Path} (hnames : path.names = []) (tree : Tree) :
    tree.isFile path = false := by
  rw [isFile, lookup, hnames]
  cases hcheck : checkPath path with
  | error e => rfl
  | ok u =>
    have habsolute : path.isAbsolute = true := by
      by_contra hrelative
      have htext := ((Path.checkPath_eq_ok_iff path).mp hcheck).2.1
      exact Path.names_ne_nil htext (by simpa using hrelative) hnames
    have hstart : tree.startOf path = [] := by rw [startOf, if_pos habsolute]
    simp [bind, Except.bind, walk, hstart, get?_nil, pure, Except.pure]

/-- If no segment begins with a separator, the files lie below the root. -/
theorem exists_lodging_of_relative
    (h : ∀ segment ∈ entity.segments, (Path.mk segment).isAbsolute = false) :
    ∃ folders stem, ∀ root, ∃ above, entity.LodgesAt root root above folders stem := by
  have hdots : ∀ name ∈ entity.steps, '.' ∉ name ∧ name ≠ [] := by
    intro name hname
    obtain ⟨segment, hsegment, hmem⟩ := List.mem_flatMap.mp hname
    exact dotless_of_mem_names hsegment hmem
  have hne : entity.steps ≠ [] := by
    have hshort := entity.shortName_mem
    obtain ⟨name, hname⟩ := List.exists_mem_of_ne_nil _
      (Path.names_ne_nil (ne_nil_of_mem_segments hshort) (h _ hshort))
    exact List.ne_nil_of_mem (List.mem_flatMap.mpr ⟨_, hshort, hname⟩)
  refine ⟨entity.steps.dropLast, entity.steps.getLast hne, fun root => ?_⟩
  obtain ⟨hnames, habsolute⟩ := Path.foldl_push_of_relative root h
  exact lodgesAt_of_names hne hdots hnames habsolute

/-- If a segment begins with a separator, no root changes where the files lie. -/
theorem exists_lodging_of_rooted
    (h : ∃ segment ∈ entity.segments, (Path.mk segment).isAbsolute = true) :
    (∃ above folders stem, ∀ root, entity.LodgesAt root ⟨['/']⟩ above folders stem) ∨
      ∀ root tree, Storage.isCached tree root entity = false := by
  have hsame := Path.foldl_push_of_rooted h
  generalize hfixed : entity.segments.foldl Path.push ⟨[]⟩ = fixed at hsame
  have hpushed : ∀ root, entity.segments.foldl Path.push root = fixed := fun root => by
    rw [← hfixed, (hsame root ⟨[]⟩).1]
  have habsolute : fixed.isAbsolute = true := hpushed ⟨[]⟩ ▸ (hsame ⟨[]⟩ ⟨[]⟩).2
  by_cases hnames : fixed.names = []
  · right
    intro root tree
    have hpath : entity.cachePath root = fixed := by
      rw [cachePath, localPath, hpushed, Path.withExtension, Path.fileName?,
        Path.backward_eq_nil hnames]
    rw [Storage.isCached, hpath]
    exact isFile_of_names_nil hnames tree
  · left
    have hdots : ∀ name ∈ fixed.names, '.' ∉ name ∧ name ≠ [] := by
      intro name hname
      rcases Path.mem_names_foldl_push (hfixed ▸ hname) with hempty | ⟨segment, hsegment, hmem⟩
      · exact absurd hempty List.not_mem_nil
      · exact dotless_of_mem_names hsegment hmem
    have hbelow : (entity.segments.foldl Path.push ⟨[]⟩).names =
        (Path.mk ['/']).names ++ fixed.names := by
      rw [hpushed]
      rfl
    have htop : (entity.segments.foldl Path.push ⟨[]⟩).isAbsolute = (Path.mk ['/']).isAbsolute := by
      rw [hpushed]
      exact habsolute
    obtain ⟨above, hlodges⟩ := lodgesAt_of_names hnames hdots hbelow htop
    refine ⟨above, fixed.names.dropLast, fixed.names.getLast hnames, fun root => ?_⟩
    refine ⟨hlodges.named, hlodges.proper, fun extension => ?_⟩
    have hpath : entity.localPath root extension = entity.localPath ⟨[]⟩ extension := by
      rw [localPath, localPath, hpushed, hpushed]
    rw [hpath]
    exact hlodges.path extension

/-- Where the files of an entity are: below every root, at a place that no root changes, or
nowhere. -/
theorem lodgesAt_cases (entity : Entity) :
    (∃ folders stem, ∀ root, ∃ above, entity.LodgesAt root root above folders stem) ∨
      (∃ above folders stem, ∀ root, entity.LodgesAt root ⟨['/']⟩ above folders stem) ∨
      ∀ root tree, Storage.isCached tree root entity = false := by
  by_cases hrooted : ∃ segment ∈ entity.segments, (Path.mk segment).isAbsolute = true
  · exact .inr (exists_lodging_of_rooted hrooted)
  · exact .inl (exists_lodging_of_relative (by simpa using hrooted))

end Entity

end ClassSkeleton
