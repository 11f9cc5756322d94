import ClassSkeleton.Proofs.Text.Occurrence
import ClassSkeleton.Proofs.Tree.Paving

/-!
Making a path a directory goes through its ancestors from the longest to the first that can be
made, and back. What comes of it is the paving of its way: the same directories are made, and it
succeeds exactly if nothing stands in the way.
-/
namespace ClassSkeleton

namespace Path

/-- Names of the path that is read backward. -/
def named (backward : List Text) : List Text := backward.reverse.filter fun name => !name.isEmpty

/-- Backward segments of a path that a system takes: it is not too long, and it begins with an
empty segment exactly if it is absolute. -/
structure IsClimb (absolute : Bool) (backward : List Text) : Prop where
  slashless : ∀ segment ∈ backward, '/' ∉ segment
  nulless : ∀ segment ∈ backward, Char.ofNat 0 ∉ segment
  short : Text.width (Text.join ['/'] backward.reverse) ≤ lengthLimit
  rooted : backward ≠ [] → (backward.getLast? = some [] ↔ absolute = true)

def origin (home : Place) (absolute : Bool) : Place := if absolute then [] else home

theorem startOf_eq (tree : Tree) (path : Path) :
    tree.startOf path = origin tree.home path.isAbsolute := rfl

variable {absolute : Bool} {segment : Text} {above : List Text}

theorem IsClimb.tail (h : IsClimb absolute (segment :: above)) : IsClimb absolute above where
  slashless other ho := h.slashless other (List.mem_cons_of_mem _ ho)
  nulless other ho := h.nulless other (List.mem_cons_of_mem _ ho)
  short := by
    by_cases habove : above = []
    · subst habove
      simp [Text.join, List.intercalate, lengthLimit]
    · have hshort := h.short
      rw [List.reverse_cons, Text.join_concat _ _ (by simpa using habove)] at hshort
      simp only [Text.width_append] at hshort
      omega
  rooted habove := by
    rw [← h.rooted (by simp), List.getLast?_cons_of_ne_nil habove]

theorem ne_nil_of_not_filler (h : isFiller segment above = false) : segment ≠ [] := by
  rintro rfl
  simp [isFiller] at h

theorem segments_join {backward : List Text} (h : IsClimb absolute backward)
    (hne : backward ≠ []) : (Path.mk (Text.join ['/'] backward.reverse)).segments =
      backward.reverse :=
  Text.splitOn_join (by simpa using hne) fun piece hpiece =>
    h.slashless piece (List.mem_reverse.mp hpiece)

theorem named_cons (segment : Text) (above : List Text) :
    named (segment :: above) = named above ++ if segment.isEmpty then [] else [segment] := by
  rw [named, List.reverse_cons, List.filter_append, ← named]
  cases segment <;> rfl

theorem names_join (h : IsClimb absolute (segment :: above)) (hsegment : segment ≠ []) :
    (Path.mk (Text.join ['/'] (segment :: above).reverse)).names = named above ++ [segment] := by
  rw [names, segments_join h (by simp), ← named, named_cons, if_neg (by simpa using hsegment)]

theorem checkPath_eq_ok_iff (path : Path) : Tree.checkPath path = .ok () ↔
    Char.ofNat 0 ∉ path.text ∧ path.text ≠ [] ∧ Text.width path.text ≤ lengthLimit := by
  unfold Tree.checkPath
  by_cases hnull : Char.ofNat 0 ∈ path.text
  · simp [hnull]
  · by_cases hempty : path.text = []
    · simp [hempty]
    · by_cases hwidth : lengthLimit < Text.width path.text
      · simp [hnull, hempty, hwidth]
      · simp [hnull, hempty, hwidth, Nat.not_lt.mp hwidth]

theorem mem_text_of_mem_names {path : Path} {name : Text} {c : Char} (hname : name ∈ path.names)
    (hc : c ∈ name) : c ∈ path.text := by
  rw [← Text.join_splitOn (List.cons_ne_nil '/' []) path.text]
  exact Text.mem_join_of_mem _ (List.mem_filter.mp hname).1 hc

/-- What a path that can be used names can stand in a directory, unless it is dots or too long. -/
theorem isName_of_mem_names {path : Path} {name : Text} (hcheck : Tree.checkPath path = .ok ())
    (hmem : name ∈ path.names) (hproper : Tree.isDots name = false)
    (hwidth : Text.width name ≤ nameLimit) : isName name = true := by
  have hempty : name ≠ [] := by
    simpa [List.isEmpty_eq_false_iff] using (List.mem_filter.mp hmem).2
  have hslash : '/' ∉ name := Text.not_mem_of_mem_splitOn (List.mem_filter.mp hmem).1
  have hnull : Char.ofNat 0 ∉ name := fun hc =>
    ((checkPath_eq_ok_iff path).mp hcheck).1 (mem_text_of_mem_names hmem hc)
  rw [Tree.isDots_eq_false_iff] at hproper
  simp only [isName, Bool.and_eq_true, bne_iff_ne, decide_eq_true_eq, Bool.not_eq_true',
    List.isEmpty_eq_false_iff]
  exact ⟨⟨⟨⟨⟨hempty, hproper.1⟩, hproper.2⟩, hslash⟩, hnull⟩, hwidth⟩

theorem checkPath_of_prefix {path other : Path} (h : Tree.checkPath other = .ok ())
    (hbegins : path.text <+: other.text) (hne : path.text ≠ []) : Tree.checkPath path = .ok () := by
  obtain ⟨hnull, -, hshort⟩ := (checkPath_eq_ok_iff other).mp h
  obtain ⟨rest, hrest⟩ := hbegins
  rw [← hrest, Text.width_append] at hshort
  exact (checkPath_eq_ok_iff path).mpr
    ⟨fun hc => hnull (hrest ▸ List.mem_append_left _ hc), hne, by omega⟩

theorem checkPath_join (h : IsClimb absolute (segment :: above)) (hsegment : segment ≠ []) :
    Tree.checkPath ⟨Text.join ['/'] (segment :: above).reverse⟩ = .ok () := by
  have hnull : Char.ofNat 0 ∉ Text.join ['/'] (segment :: above).reverse := by
    intro hmem
    rcases Text.mem_join hmem with hslash | ⟨piece, hpiece, hmem⟩
    · exact absurd hslash (by decide)
    · exact h.nulless piece (List.mem_reverse.mp hpiece) hmem
  have hne : Text.join ['/'] (segment :: above).reverse ≠ [] := by
    intro hnil
    have hsegments := segments_join h (by simp)
    rw [hnil] at hsegments
    have hrev : (segment :: above).reverse = [[]] := by
      simpa [segments, Text.splitOn, Text.splitFrom] using hsegments.symm
    have : segment :: above = [[]] := by
      simpa using congrArg List.reverse hrev
    exact hsegment (List.cons.inj this).1
  exact (checkPath_eq_ok_iff _).mpr ⟨hnull, hne, h.short⟩

theorem rooted_join (hslash : ∀ other ∈ segment :: above, '/' ∉ other) (hsegment : segment ≠ []) :
    (segment :: above).getLast? = some [] ↔
      (Path.mk (Text.join ['/'] (segment :: above).reverse)).isAbsolute = true := by
  obtain ⟨first, rest, hrev⟩ := List.exists_cons_of_ne_nil
    (show (segment :: above).reverse ≠ [] by simp)
  have hlast : (segment :: above).getLast? = some first := by
    rw [← List.head?_reverse, hrev, List.head?_cons]
  have hfirst : '/' ∉ first := hslash first (by
    rw [← List.mem_reverse, hrev]
    exact List.mem_cons_self)
  rw [hlast, Option.some.injEq, isAbsolute, hrev]
  cases first with
  | nil =>
    have hrest : rest ≠ [] := by
      rintro rfl
      have hsingle : segment :: above = [[]] := by simpa using congrArg List.reverse hrev
      exact hsegment (List.cons.inj hsingle).1
    rw [Text.join_cons _ _ hrest]
    simp [List.isPrefixOf]
  | cons c first =>
    have hc : c ≠ '/' := fun hc => hfirst (by simp [hc])
    by_cases hrest : rest = []
    · subst hrest
      simpa [Text.join, List.intercalate, List.isPrefixOf] using Ne.symm hc
    · rw [Text.join_cons _ _ hrest]
      simpa [List.isPrefixOf] using Ne.symm hc

theorem wantsDirectory_join (above : List Text) (hslash : '/' ∉ segment) (hsegment : segment ≠ []) :
    (Path.mk (Text.join ['/'] (segment :: above).reverse)).wantsDirectory = false := by
  obtain ⟨front, c, rfl⟩ := (List.eq_nil_or_concat segment).resolve_left hsegment
  have hc : c ≠ '/' := fun hc => hslash (by simp [hc])
  have hlast : ∀ before : Text, ['/'].isSuffixOf (before ++ [c]) = false := by
    intro before
    rw [Bool.eq_false_iff]
    intro hsuffix
    obtain ⟨start, hstart⟩ := List.isSuffixOf_iff_suffix.mp hsuffix
    exact hc (by simpa using (List.append_inj' hstart rfl).2.symm)
  rw [wantsDirectory, List.reverse_cons, List.concat_eq_append]
  by_cases habove : above = []
  · subst habove
    simpa [Text.join, List.intercalate] using hlast front
  · rw [Text.join_concat _ _ (by simpa using habove), ← List.append_assoc]
    exact hlast _

theorem isAbsolute_join (h : IsClimb absolute (segment :: above)) (hsegment : segment ≠ []) :
    (Path.mk (Text.join ['/'] (segment :: above).reverse)).isAbsolute = absolute := by
  rw [Bool.eq_iff_iff, ← rooted_join h.slashless hsegment]
  exact h.rooted (by simp)

end Path

namespace Tree

variable {tree : Tree} {path : Path} {dirs : List Text} {name : Text}

/-- A path leads to what its walk ends at. A file is not reached where a directory is wanted. -/
theorem lookup_eq_ok_iff {place : Place} {entry : Entry} : tree.lookup path = .ok (place, entry) ↔
    checkPath path = .ok () ∧ tree.walk (tree.startOf path) path.names = .ok place ∧
      tree.get? place = some entry ∧ (entry = .directory ∨ path.wantsDirectory = false) := by
  unfold lookup
  cases checkPath path with
  | error e => simp [bind, Except.bind]
  | ok u =>
    simp only [bind, Except.bind, true_and]
    cases tree.walk (tree.startOf path) path.names with
    | error e => simp
    | ok found =>
      simp only [Except.ok.injEq]
      constructor
      · intro h
        split at h
        · cases h
        · rename_i content hfile
          split at h
          · cases h
          · rename_i hcloses
            cases h
            exact ⟨rfl, hfile, .inr (by simpa using hcloses)⟩
        · rename_i hdirectory
          cases h
          exact ⟨rfl, hdirectory, .inl rfl⟩
      · rintro ⟨rfl, hentry, rfl | hcloses⟩
        · rw [hentry]
          rfl
        · rw [hentry]
          cases entry <;> simp [hcloses, pure, Except.pure]

theorem lookup_directory_iff {place : Place} : tree.lookup path = .ok (place, .directory) ↔
    checkPath path = .ok () ∧ Opens tree.get? (tree.startOf path) path.names ∧
      place = seat (tree.startOf path) path.names := by
  rw [lookup_eq_ok_iff]
  constructor
  · rintro ⟨hcheck, hwalk, hentry, -⟩
    exact ⟨hcheck, opens_of_walk hwalk hentry⟩
  · rintro ⟨hcheck, hopen, rfl⟩
    exact ⟨hcheck, walk_of_opens hopen, hopen.seat, .inl rfl⟩

theorem isDirectory_iff : tree.isDirectory path = true ↔
    checkPath path = .ok () ∧ Opens tree.get? (tree.startOf path) path.names := by
  unfold isDirectory
  constructor
  · intro h
    split at h
    · rename_i hlookup
      obtain ⟨hcheck, hopen, -⟩ := lookup_directory_iff.mp hlookup
      exact ⟨hcheck, hopen⟩
    · cases h
  · rintro ⟨hcheck, hopen⟩
    rw [lookup_directory_iff.mpr ⟨hcheck, hopen, rfl⟩]

theorem target_of_opens (hcheck : checkPath path = .ok ()) (hnames : path.names = dirs ++ [name])
    (h : Opens tree.get? (tree.startOf path) dirs) :
    tree.target path = .ok (seat (tree.startOf path) dirs, name) := by
  simp [target, hcheck, hnames, walk_of_opens h, isDirectoryAt_iff.mpr h.seat, bind, Except.bind,
    pure, Except.pure]

theorem target_of_not_opens (hnames : path.names = dirs ++ [name])
    (h : ¬ Opens tree.get? (tree.startOf path) dirs) : ∃ e, tree.target path = .error e := by
  unfold target
  cases hcheck : checkPath path with
  | error e => exact ⟨e, rfl⟩
  | ok u =>
    simp only [hnames, List.getLast?_concat, List.dropLast_concat, bind, Except.bind]
    cases hwalk : tree.walk (tree.startOf path) dirs with
    | error e => exact ⟨e, rfl⟩
    | ok place =>
      have hplace : tree.isDirectoryAt place = false :=
        isDirectoryAt_eq_false fun hdir => h (opens_of_walk hwalk hdir).1
      exact ⟨.notDirectory, by simp [hplace]⟩

/-- One directory made; it is all right if it was there before. -/
def makeOne (tree : Tree) (path : Path) : Except IoCause Unit × Tree :=
  match tree.makeDirectory path with
  | .ok made => (.ok (), made)
  | .error e => (if tree.isDirectory path then .ok () else .error e, tree)

theorem makeDirectories_cons (above : List Path) (hpath : path.text ≠ []) :
    tree.makeDirectories (path :: above) =
      match tree.makeDirectory path with
      | .error .notFound =>
        match tree.makeDirectories above with
        | (.error e, tree) => (.error e, tree)
        | (.ok _, tree) => tree.makeOne path
      | _ => tree.makeOne path := by
  rw [makeDirectories, if_neg (by simpa using hpath)]
  cases hmake : tree.makeDirectory path with
  | ok made => simp [makeOne, hmake]
  | error e =>
    have hone : tree.makeOne path =
        (if tree.isDirectory path then .ok () else .error e, tree) := by rw [makeOne, hmake]
    cases e with
    | notFound =>
      rcases tree.makeDirectories above with ⟨e | u, made⟩
      · rfl
      · unfold makeOne
        cases made.makeDirectory path <;> rfl
    | _ => exact hone.symm

/-- What a tree has become when a way was made in it; that goes well if nothing is in the way. -/
structure Paves (tree : Tree) (here : Place) (names : List Text)
    (made : Except IoCause Unit × Tree) : Prop where
  home : made.2.home = tree.home
  view : made.2.get? = pave tree.get? here names
  done : Passable tree.get? here names → made.1 = .ok ()

theorem makeOne_of_not_opens (hnames : path.names = dirs ++ [name])
    (h : ¬ Opens tree.get? (tree.startOf path) dirs) :
    ∃ e, tree.makeOne path = (.error e, tree) := by
  obtain ⟨e, htarget⟩ := target_of_not_opens hnames h
  have hdirectory : tree.isDirectory path = false := by
    rw [Bool.eq_false_iff]
    intro hd
    have hopens := (isDirectory_iff.mp hd).2
    rw [hnames, opens_append] at hopens
    exact h hopens.1
  exact ⟨e, by simp [makeOne, makeDirectory, htarget, hdirectory, bind, Except.bind]⟩

section LastStep

variable (hcheck : checkPath path = .ok ()) (hnames : path.names = dirs ++ [name])
  (h : Opens tree.get? (tree.startOf path) dirs)

include hcheck hnames h

theorem makeDirectory_of_opens : tree.makeDirectory path =
    let parent := seat (tree.startOf path) dirs
    if isDots name then .error .exists
    else if nameLimit < Text.width name then .error .nameTooLong
    else if (tree.get? (parent ++ [name])).isSome then .error .exists
    else .ok (tree.put (parent ++ [name]) .directory) := by
  rw [makeDirectory, target_of_opens hcheck hnames h]
  rfl

theorem makeDirectory_of_taken (htaken : nameLimit < Text.width name ∨
    (tree.get? (onward (seat (tree.startOf path) dirs) name)).isSome = true) :
    ∃ e, tree.makeDirectory path = .error e := by
  rw [makeDirectory_of_opens hcheck hnames h]
  simp only
  split
  · exact ⟨_, rfl⟩
  rename_i hdots
  split
  · exact ⟨_, rfl⟩
  rename_i hwidth
  have hthere := htaken.resolve_left hwidth
  rw [onward_of_not_dots _ (by simpa using hdots)] at hthere
  rw [if_pos hthere]
  exact ⟨_, rfl⟩

/-- The last name of a way that is open so far leads to a directory already. -/
theorem makeOne_of_directory
    (hlast : tree.get? (onward (seat (tree.startOf path) dirs) name) = some .directory) :
    Paves tree (tree.startOf path) (dirs ++ [name]) (tree.makeOne path) := by
  have hopens : Opens tree.get? (tree.startOf path) (dirs ++ [name]) := by
    rw [opens_append, opens_cons, opens_nil]
    exact ⟨h, h.seat, hlast⟩
  have hdirectory : tree.isDirectory path = true :=
    isDirectory_iff.mpr ⟨hcheck, by rw [hnames]; exact hopens⟩
  obtain ⟨e, hmake⟩ := makeDirectory_of_taken hcheck hnames h (.inr (by simp [hlast]))
  have hone : tree.makeOne path = (.ok (), tree) := by simp [makeOne, hmake, hdirectory]
  rw [hone]
  exact ⟨rfl, (pave_of_opens hopens).symm, fun _ => rfl⟩

/-- Something stands where the last name leads, or nothing can. -/
theorem makeOne_of_obstacle
    (hlast : tree.get? (onward (seat (tree.startOf path) dirs) name) ≠ some .directory)
    (hstop : nameLimit < Text.width name ∨
      isFileAt tree.get? (onward (seat (tree.startOf path) dirs) name) = true) :
    Paves tree (tree.startOf path) (dirs ++ [name]) (tree.makeOne path) := by
  have hnot : ¬ Opens tree.get? (tree.startOf path) (dirs ++ [name]) := by
    rw [opens_append, opens_cons, opens_nil]
    exact fun hopens => hlast hopens.2.2
  have hdirectory : tree.isDirectory path = false := by
    rw [Bool.eq_false_iff]
    intro hd
    exact hnot (hnames ▸ (isDirectory_iff.mp hd).2)
  have htaken : nameLimit < Text.width name ∨
      (tree.get? (onward (seat (tree.startOf path) dirs) name)).isSome = true := by
    refine hstop.imp_right fun hfile => ?_
    obtain ⟨content, hcontent⟩ := isFileAt_iff.mp hfile
    simp [hcontent]
  obtain ⟨e, hmake⟩ := makeDirectory_of_taken hcheck hnames h htaken
  have hone : tree.makeOne path = (.error e, tree) := by simp [makeOne, hmake, hdirectory]
  have hreach : reach tree.get? (seat (tree.startOf path) dirs) [name] = [] := by
    rw [reach, if_pos hstop]
  have hfront := passable_of_tree_opens h
  have hpave : pave tree.get? (tree.startOf path) (dirs ++ [name]) = tree.get? := by
    refine pave_eq_self fun place hplace => ?_
    rw [reach_append, if_pos hfront.2, hreach, List.append_nil] at hplace
    rw [h place (List.mem_cons_of_mem _ hplace)]
    simp
  rw [hone]
  refine ⟨rfl, hpave.symm, fun hp => ?_⟩
  rw [passable_append, hreach] at hp
  simp [trail] at hp

/-- The last name leads to nothing yet. -/
theorem makeOne_of_missing (hwidth : ¬ nameLimit < Text.width name)
    (hlast : tree.get? (onward (seat (tree.startOf path) dirs) name) = none) :
    Paves tree (tree.startOf path) (dirs ++ [name]) (tree.makeOne path) := by
  have hdots : isDots name = false := not_dots_of_onward h.seat (by simp [hlast])
  have honward := onward_of_not_dots (seat (tree.startOf path) dirs) hdots
  rw [honward] at hlast
  have hname : isName name = true :=
    Path.isName_of_mem_names hcheck (by simp [hnames]) hdots (Nat.not_lt.mp hwidth)
  have hadmits : tree.Admits (seat (tree.startOf path) dirs ++ [name]) .directory :=
    admits_concat h.seat hname fun _ => rfl
  have hmake : tree.makeDirectory path =
      .ok (tree.put (seat (tree.startOf path) dirs ++ [name]) .directory) := by
    rw [makeDirectory_of_opens hcheck hnames h]
    simp [hdots, hwidth, hlast]
  have hone : tree.makeOne path =
      (.ok (), tree.put (seat (tree.startOf path) dirs ++ [name]) .directory) := by
    simp [makeOne, hmake]
  have hfront := passable_of_tree_opens h
  have hreach : reach tree.get? (seat (tree.startOf path) dirs) [name] =
      [seat (tree.startOf path) dirs ++ [name]] := by
    rw [reach, honward, if_neg (by simp [hwidth, isFileAt_eq_false_of_none hlast]), reach]
  rw [hone]
  refine ⟨home_put _ _ _, ?_, fun _ => rfl⟩
  funext place
  rw [get?_put hadmits, pave, reach_append, if_pos hfront.2, hreach]
  by_cases hplace : seat (tree.startOf path) dirs ++ [name] = place
  · subst hplace
    rw [if_pos rfl, if_pos ⟨h.start, by simp, hlast⟩]
  · rw [if_neg hplace]
    split
    · rename_i hp
      have htrail : place ∈ trail (tree.startOf path) dirs := by
        rcases List.mem_append.mp hp.2.1 with ht | ht
        · exact ht
        · exact absurd (List.mem_singleton.mp ht).symm hplace
      exact absurd (h place (List.mem_cons_of_mem _ htrail)) (by simp [hp.2.2])
    · rfl

theorem makeOne_of_opens :
    Paves tree (tree.startOf path) (dirs ++ [name]) (tree.makeOne path) := by
  by_cases hdir : tree.get? (onward (seat (tree.startOf path) dirs) name) = some .directory
  · exact makeOne_of_directory hcheck hnames h hdir
  by_cases hstop : nameLimit < Text.width name ∨
      isFileAt tree.get? (onward (seat (tree.startOf path) dirs) name) = true
  · exact makeOne_of_obstacle hcheck hnames h hdir hstop
  rw [not_or] at hstop
  refine makeOne_of_missing hcheck hnames h hstop.1 ?_
  cases hentry : tree.get? (onward (seat (tree.startOf path) dirs) name) with
  | none => rfl
  | some entry =>
    cases entry with
    | directory => exact absurd hentry hdir
    | file content => exact absurd (isFileAt_iff.mpr ⟨content, hentry⟩) hstop.2

end LastStep

/-- A walk that fails, but not because something is missing, has met an obstacle with everything
there before it. -/
theorem obstructed_of_walk {here : Place} {names : List Text}
    (hwalk : tree.walk here names ≠ .error .notFound) (h : ¬ Opens tree.get? here names) :
    Obstructed tree.get? here names := by
  induction names generalizing here with
  | nil => exact obstructed_of_not_start fun hdir => h ((opens_nil _ _).mpr hdir)
  | cons name names ih =>
    by_cases hhere : tree.get? here = some .directory
    · by_cases hstop : nameLimit < Text.width name ∨ isFileAt tree.get? (onward here name) = true
      · exact obstructed_of_obstacle hstop
      rw [not_or] at hstop
      have hnext : tree.get? (onward here name) ≠ none := by
        intro hnone
        apply hwalk
        rw [walk, enter_of_missing hhere hstop.1 hnone]
      have hdir : tree.get? (onward here name) = some .directory := by
        cases hentry : tree.get? (onward here name) with
        | none => exact absurd hentry hnext
        | some entry =>
          cases entry with
          | directory => rfl
          | file content => exact absurd (isFileAt_iff.mpr ⟨content, hentry⟩) hstop.2
      rw [walk, enter_of_there hhere hdir] at hwalk
      refine (ih hwalk fun hrest => h ?_).cons hstop.1 hdir
      exact (opens_cons _ _ _ _).mpr ⟨hhere, hrest⟩
    · exact obstructed_of_not_start hhere

section Upward

/-! One step upward. The last name of a path is made after the directories above it. -/

variable {start : Place} (hcheck : checkPath path = .ok ()) (hnames : path.names = dirs ++ [name])
  (hstart : ∀ other : Tree, other.home = tree.home → other.startOf path = start)

include hcheck hnames hstart

/-- Once everything above a path has been made, as far as it could be, its last name follows. -/
theorem paves_upward_step {outcome : Except IoCause Unit} {made : Tree}
    (hup : Paves tree start dirs (outcome, made)) :
    Paves tree start (dirs ++ [name])
      (match (outcome, made) with
        | (.error e, made) => (.error e, made)
        | (.ok _, made) => made.makeOne path) := by
  obtain ⟨hhome, hview, hdone⟩ := hup
  simp only at hhome hview hdone
  by_cases hpassable : Passable tree.get? start dirs
  · obtain rfl := hdone hpassable
    have hmade : Opens made.get? (made.startOf path) dirs := by
      rw [hstart made hhome, hview]
      exact hpassable.opens_pave
    have hone := makeOne_of_opens hcheck hnames hmade
    rw [hstart made hhome] at hone
    refine ⟨hone.home.trans hhome, ?_, fun hp => hone.done ?_⟩
    · rw [hone.view, hview, pave_pave_append]
    · rw [hview, passable_pave]
      exact hp
  · have hstay : made.get? = pave tree.get? start (dirs ++ [name]) := by
      rw [pave_append_of_not_passable hpassable, hview]
    have hblocked : ¬ Passable tree.get? start (dirs ++ [name]) := fun hp =>
      hpassable ((passable_append _ _ _ _).mp hp).1
    cases outcome with
    | error e => exact ⟨hhome, hstay, fun hp => absurd hp hblocked⟩
    | ok u =>
      have hnot : ¬ Opens made.get? (made.startOf path) dirs := by
        rw [hstart made hhome]
        exact fun hmade => hpassable (passable_of_opens hview hmade)
      obtain ⟨e, hone⟩ := makeOne_of_not_opens hnames hnot
      simp only [hone]
      exact ⟨hhome, hstay, fun hp => absurd hp hblocked⟩

theorem makeDirectories_step {above : List Path}
    (hup : Paves tree start dirs (tree.makeDirectories above)) :
    Paves tree start (dirs ++ [name]) (tree.makeDirectories (path :: above)) := by
  have htext : path.text ≠ [] := ((Path.checkPath_eq_ok_iff path).mp hcheck).2.1
  rw [makeDirectories_cons _ htext]
  by_cases hfound : tree.makeDirectory path = .error .notFound
  · rw [hfound]
    rcases hmade : tree.makeDirectories above with ⟨outcome, made⟩
    rw [hmade] at hup
    exact paves_upward_step hcheck hnames hstart hup
  -- Nothing is missing above the path, so what is above it is left as it is.
  have hone : Paves tree start (dirs ++ [name]) (tree.makeOne path) := by
    by_cases hopen : Opens tree.get? (tree.startOf path) dirs
    · have hone := makeOne_of_opens hcheck hnames hopen
      rwa [hstart tree rfl] at hone
    · have hwalk : tree.walk (tree.startOf path) dirs ≠ .error .notFound := by
        intro hwalk
        apply hfound
        simp [makeDirectory, target, hcheck, hnames, hwalk, bind, Except.bind]
      have hobstructed := (obstructed_of_walk hwalk hopen).append [name]
      obtain ⟨e, hone⟩ := makeOne_of_not_opens hnames hopen
      rw [hstart tree rfl] at hobstructed
      rw [hone]
      exact ⟨rfl, hobstructed.paved.symm, fun hp => absurd hp hobstructed.blocked⟩
  split
  · rename_i hmake
    exact absurd hmake hfound
  · exact hone

end Upward

theorem makeDirectories_top (absolute : Bool) (tree : Tree) :
    tree.makeDirectories (Path.upward absolute []) = (.ok (), tree) := by
  cases absolute with
  | false => rfl
  | true =>
    have hmake : tree.makeDirectory ⟨['/']⟩ = .error .exists := rfl
    have hdirectory : tree.isDirectory ⟨['/']⟩ = true :=
      isDirectory_iff.mpr ⟨rfl, (opens_nil _ _).mpr (get?_nil tree)⟩
    simp [Path.upward, makeDirectories, hmake, hdirectory]

/-- Making directories upward and back paves the way. -/
theorem makeDirectories_upward {absolute : Bool} {backward : List Text}
    (h : Path.IsClimb absolute backward) (tree : Tree) :
    Paves tree (Path.origin tree.home absolute) (Path.named backward)
      (tree.makeDirectories (Path.upward absolute backward)) := by
  induction backward with
  | nil =>
    rw [makeDirectories_top]
    exact ⟨rfl, (pave_eq_self (by simp [Path.named, reach])).symm, fun _ => rfl⟩
  | cons segment above ih =>
    have hup := ih h.tail
    by_cases hfiller : Path.isFiller segment above = true
    · rw [Path.upward, if_pos hfiller, Path.named_cons]
      simp only [Path.isFiller, Bool.or_eq_true, Bool.and_eq_true, beq_iff_eq] at hfiller
      rcases hfiller with hempty | ⟨rfl, -⟩
      · rw [if_pos hempty, List.append_nil]
        exact hup
      · exact ⟨hup.home, hup.view.trans pave_dot.symm, fun hp => hup.done (passable_dot.mp hp)⟩
    · have hsegment := Path.ne_nil_of_not_filler (by simpa using hfiller)
      rw [Path.upward, if_neg hfiller, Path.named_cons, if_neg (by simpa using hsegment)]
      refine makeDirectories_step (Path.checkPath_join h hsegment) (Path.names_join h hsegment)
        (fun other hother => ?_) hup
      rw [Path.startOf_eq, Path.isAbsolute_join h hsegment, hother]

end Tree

end ClassSkeleton
