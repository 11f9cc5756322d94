import ClassSkeleton.Proofs.Tree.Spot
import ClassSkeleton.Storage

/-!
The parent of a path, and the sibling that a file is written to first. The parent is found by
passing over empty segments and dots, which lead nowhere, so its way is that of the path; making
sure that it is there paves this way.
-/
namespace ClassSkeleton

namespace Path

/-- The path is written with a proper last name behind the given backward segments. -/
structure Ends (path : Path) (above : List Text) (name : Text) : Prop where
  segments : path.segments = (name :: above).reverse
  proper : Tree.isDots name = false
  nonempty : name ≠ []

/-- The path with backward segments that have been settled; without any it is the root or empty. -/
def ascend (absolute : Bool) (base : List Text) : Path :=
  if base = [] then ⟨if absolute then ['/'] else []⟩ else ⟨Text.join ['/'] base.reverse⟩

theorem ascend_cons (absolute : Bool) (segment : Text) (above : List Text) :
    ascend absolute (segment :: above) = ⟨Text.join ['/'] (segment :: above).reverse⟩ :=
  if_neg (List.cons_ne_nil segment above)

/-- A system takes the directory part of the path, or there is none. -/
def isGrounded (absolute : Bool) (above : List Text) : Bool :=
  (settle above).isEmpty || (Tree.checkPath (ascend absolute (settle above))).toBool

theorem upward_settle (absolute : Bool) (backward : List Text) :
    upward absolute (settle backward) = upward absolute backward := by
  induction backward with
  | nil => rfl
  | cons segment above ih =>
    by_cases hfiller : isFiller segment above = true
    · rw [settle, if_pos hfiller, upward, if_pos hfiller, ih]
    · rw [settle, if_neg hfiller]

theorem settle_cases (backward : List Text) :
    settle backward = [] ∨ ∃ segment above, settle backward = segment :: above ∧
      isFiller segment above = false := by
  induction backward with
  | nil => exact Or.inl rfl
  | cons segment above ih =>
    by_cases hfiller : isFiller segment above = true
    · rw [settle, if_pos hfiller]
      exact ih
    · rw [settle, if_neg hfiller]
      exact Or.inr ⟨segment, above, rfl, by simpa using hfiller⟩

theorem settle_suffix (backward : List Text) : settle backward <:+ backward := by
  induction backward with
  | nil => exact List.suffix_rfl
  | cons segment above ih =>
    rw [settle]
    split
    · exact ih.trans (List.suffix_cons segment above)
    · exact List.suffix_rfl

theorem settle_of_not_filler {segment : Text} {above : List Text}
    (h : isFiller segment above = false) : settle (segment :: above) = segment :: above := by
  rw [settle, if_neg (by simp [h])]

theorem getLast?_settle {backward : List Text} (h : settle backward ≠ []) :
    (settle backward).getLast? = backward.getLast? := by
  obtain ⟨front, hfront⟩ := settle_suffix backward
  calc (settle backward).getLast?
      = (front ++ settle backward).getLast? := by
        rw [List.getLast?_append, List.getLast?_eq_some_getLast h]
        rfl
    _ = backward.getLast? := by rw [hfront]

theorem rooted_segments {path : Path} (htext : path.text ≠ []) :
    path.segments.head? = some [] ↔ path.isAbsolute = true := by
  obtain ⟨first, rest, hsegments⟩ := List.exists_cons_of_ne_nil
    (show path.segments ≠ [] from Text.splitFrom_ne_nil _ _ _)
  have hjoin : Text.join ['/'] (first :: rest) = path.text := by
    rw [← hsegments]
    exact Text.join_splitOn (by simp) path.text
  have hslash : '/' ∉ first := by
    have hfirst : first ∈ path.segments := by
      rw [hsegments]
      exact List.mem_cons_self
    exact Text.not_mem_of_mem_splitOn hfirst
  rw [hsegments, List.head?_cons, Option.some.injEq, isAbsolute, ← hjoin]
  cases first with
  | nil =>
    by_cases hrest : rest = []
    · subst hrest
      exact absurd hjoin.symm htext
    · simp [Text.join_cons _ _ hrest]
  | cons c first =>
    have hc : c ≠ '/' := fun hc => hslash (by simp [hc])
    by_cases hrest : rest = []
    · subst hrest
      simpa [Text.join, List.intercalate] using Ne.symm hc
    · rw [Text.join_cons _ _ hrest]
      simpa using Ne.symm hc

section Backward

/-! A path whose backward segments are known. -/

variable {path : Path} {segment : Text} {above : List Text}
  (h : path.backward = segment :: above)

include h

theorem not_filler_of_backward : isFiller segment above = false := by
  rcases settle_cases path.segments.reverse with hnone | ⟨other, rest, hsettle, hother⟩
  · rw [← backward, h] at hnone
    simp at hnone
  · rw [← backward, h] at hsettle
    obtain ⟨rfl, rfl⟩ := List.cons.inj hsettle
    exact hother

theorem backward_suffix : segment :: above <:+ path.segments.reverse := h ▸ settle_suffix _

theorem slashless_of_backward : ∀ other ∈ segment :: above, '/' ∉ other := fun _ ho =>
  Text.not_mem_of_mem_splitOn (List.mem_reverse.mp ((backward_suffix h).subset ho))

theorem rooted_of_backward : (segment :: above).getLast? = some [] ↔ path.isAbsolute = true := by
  have htext : path.text ≠ [] := fun hempty => by
    have hnone : path.backward = [] := by
      rw [Path.backward, segments, hempty]
      decide
    rw [hnone] at h
    cases h
  have hbackward : settle path.segments.reverse ≠ [] := by
    rw [← backward, h]
    exact List.cons_ne_nil _ _
  have hlast := getLast?_settle hbackward
  rw [← rooted_segments htext, ← List.getLast?_reverse, ← hlast, ← backward, h]

theorem settled_of_backward (hbase : settle above ≠ []) :
    (settle above).getLast? = some [] ↔ path.isAbsolute = true := by
  have habove : above ≠ [] := by
    rintro rfl
    exact hbase rfl
  rw [getLast?_settle hbase, ← rooted_of_backward h, List.getLast?_cons_of_ne_nil habove]

theorem parent?_of_backward : path.parent? = some (ascend path.isAbsolute (settle above)) := by
  rw [Path.parent?, ancestors, h]
  simp only [List.getElem?_cons_succ]
  rw [← upward_settle]
  rcases settle_cases above with hbase | ⟨other, rest, hbase, hfiller⟩
  · rw [hbase, ascend, if_pos rfl]
    rfl
  · rw [hbase, upward, if_neg (by simp [hfiller]), ascend, if_neg (by simp)]
    rfl

/-- The parent goes by the settled segments, and so do its ancestors. -/
theorem ancestors_of_backward :
    (ascend path.isAbsolute (settle above)).ancestors = upward path.isAbsolute above := by
  rw [← upward_settle]
  rcases settle_cases above with hbase | ⟨other, rest, hbase, hfiller⟩
  · rw [hbase, ascend, if_pos rfl]
    cases path.isAbsolute <;> rfl
  have hother := ne_nil_of_not_filler hfiller
  have hsuffix : other :: rest <:+ above := hbase ▸ settle_suffix above
  have hslash : ∀ piece ∈ other :: rest, '/' ∉ piece := fun piece hp =>
    slashless_of_backward h piece (List.mem_cons_of_mem _ (hsuffix.subset hp))
  rw [hbase, ascend, if_neg (by simp)]
  have hsegments : (Path.mk (Text.join ['/'] (other :: rest).reverse)).segments =
      (other :: rest).reverse :=
    Text.splitOn_join (by simp) fun piece hpiece => hslash piece (List.mem_reverse.mp hpiece)
  have habsolute : (Path.mk (Text.join ['/'] (other :: rest).reverse)).isAbsolute =
      path.isAbsolute := by
    rw [Bool.eq_iff_iff, ← rooted_join hslash hother, ← hbase]
    exact settled_of_backward h (by simp [hbase])
  rw [ancestors, Path.backward, hsegments, List.reverse_reverse, settle_of_not_filler hfiller,
    habsolute, upward, if_neg (by simp [hfiller])]

end Backward

open ClassSkeleton.Tree

/-- Two lists of names make the same way from any place. -/
structure SameWay (names others : List Text) : Prop where
  pave : ∀ view here, Tree.pave view here names = Tree.pave view here others
  passable : ∀ view here, Passable view here names ↔ Passable view here others
  opens : ∀ view here, Opens view here names ↔ Opens view here others
  seat : ∀ here, Tree.seat here names = Tree.seat here others

theorem sameWay_settle (backward : List Text) :
    SameWay (named (settle backward)) (named backward) := by
  induction backward with
  | nil => exact ⟨fun _ _ => rfl, fun _ _ => Iff.rfl, fun _ _ => Iff.rfl, fun _ => rfl⟩
  | cons segment above ih =>
    by_cases hfiller : isFiller segment above = true
    · rw [settle, if_pos hfiller, named_cons]
      simp only [isFiller, Bool.or_eq_true, Bool.and_eq_true, beq_iff_eq] at hfiller
      rcases hfiller with hempty | ⟨rfl, -⟩
      · rw [if_pos hempty, List.append_nil]
        exact ih
      · exact {
          pave := fun view here => (ih.pave view here).trans pave_dot.symm
          passable := fun view here => (ih.passable view here).trans passable_dot.symm
          opens := fun view here => (ih.opens view here).trans opens_dot.symm
          seat := fun here => (ih.seat here).trans (seat_dot here _).symm }
    · rw [settle, if_neg hfiller]
      exact ⟨fun _ _ => rfl, fun _ _ => Iff.rfl, fun _ _ => Iff.rfl, fun _ => rfl⟩

namespace Ends

variable {path : Path} {above : List Text} {name : Text}

theorem not_filler (h : path.Ends above name) : isFiller name above = false := by
  have hproper := h.proper
  rw [isDots_eq_false_iff] at hproper
  simp [isFiller, h.nonempty, hproper.1]

theorem backward (h : path.Ends above name) : path.backward = name :: above := by
  rw [Path.backward, h.segments, List.reverse_reverse, settle_of_not_filler h.not_filler]

theorem fileName? (h : path.Ends above name) : path.fileName? = some name := by
  have hproper := h.proper
  rw [isDots_eq_false_iff] at hproper
  rw [Path.fileName?, h.backward]
  simp [hproper.1, hproper.2]

theorem slashless (h : path.Ends above name) : ∀ segment ∈ name :: above, '/' ∉ segment := by
  intro segment hsegment
  have hmem : segment ∈ Text.splitOn ['/'] path.text := by
    change segment ∈ path.segments
    rw [h.segments]
    exact List.mem_reverse.mpr hsegment
  exact Text.not_mem_of_mem_splitOn hmem

theorem text (h : path.Ends above name) : path.text = Text.join ['/'] (name :: above).reverse := by
  rw [← h.segments]
  exact (Text.join_splitOn (by simp) path.text).symm

theorem rooted (h : path.Ends above name) :
    (name :: above).getLast? = some [] ↔ path.isAbsolute = true := by
  rw [rooted_join h.slashless h.nonempty, ← h.text]

theorem leadsTo (h : path.Ends above name) : path.LeadsTo path.isAbsolute (named above) name where
  names := by
    rw [names, h.segments, ← named, named_cons, if_neg (by simpa using h.nonempty)]
  isAbsolute := rfl
  closed := by
    have hclosed := wantsDirectory_join above (h.slashless name List.mem_cons_self)
      h.nonempty
    rwa [← h.text] at hclosed
  proper := h.proper

theorem settled (h : path.Ends above name) (hbase : settle above ≠ []) :
    (settle above).getLast? = some [] ↔ path.isAbsolute = true :=
  settled_of_backward h.backward hbase

theorem isClimb (h : path.Ends above name) (hground : isGrounded path.isAbsolute above = true) :
    IsClimb path.isAbsolute (settle above) := by
  by_cases hbase : settle above = []
  · rw [hbase]
    exact ⟨by simp, by simp, by simp [Text.join, List.intercalate], by simp⟩
  have hcheck : checkPath ⟨Text.join ['/'] (settle above).reverse⟩ = .ok () := by
    rw [isGrounded, List.isEmpty_eq_false_iff.mpr hbase, Bool.false_or, ascend, if_neg hbase]
      at hground
    cases hcheck : checkPath ⟨Text.join ['/'] (settle above).reverse⟩ with
    | ok u => rfl
    | error e => simp [hcheck, Except.toBool] at hground
  obtain ⟨hnull, -, hshort⟩ := (checkPath_eq_ok_iff _).mp hcheck
  exact {
    slashless := fun other ho =>
      h.slashless other (List.mem_cons_of_mem _ ((settle_suffix above).subset ho))
    nulless := fun other ho hc =>
      hnull (Text.mem_join_of_mem _ (List.mem_reverse.mpr ho) hc)
    short := hshort
    rooted := fun _ => h.settled hbase }

theorem ancestors_ascend (h : path.Ends above name) :
    (ascend path.isAbsolute (settle above)).ancestors = upward path.isAbsolute above :=
  ancestors_of_backward h.backward

theorem parent? (h : path.Ends above name) :
    path.parent? = some (ascend path.isAbsolute (settle above)) :=
  parent?_of_backward h.backward

end Ends

section Push

/-! One more name behind a path that has been settled. -/

variable {absolute : Bool} {name : Text} (hslash : '/' ∉ name) (hproper : isDots name = false)
  (hempty : name ≠ [])

include hslash hempty

theorem not_rooted : ['/'].isPrefixOf name = false := by
  obtain ⟨c, rest, rfl⟩ := List.exists_cons_of_ne_nil hempty
  have hc : c ≠ '/' := fun hc => hslash (by simp [hc])
  simpa [List.isPrefixOf] using Ne.symm hc

include hproper

theorem leadsTo_push_nil (absolute : Bool) :
    ((ascend absolute []).push name).LeadsTo absolute [] name := by
  have hname := not_rooted hslash hempty
  rw [ascend, if_pos rfl, push, if_neg (by simp [hname])]
  cases absolute with
  | false =>
    have hends : (Path.mk name).Ends [] name := ⟨Text.splitOn_eq_self hslash, hproper, hempty⟩
    have hrelative : (Path.mk name).isAbsolute = false := hname
    have hleads := hends.leadsTo
    rw [hrelative] at hleads
    exact hleads
  | true =>
    have hends : (Path.mk ('/' :: name)).Ends [[]] name := by
      refine ⟨?_, hproper, hempty⟩
      have hsplit := Text.splitOn_append_char '/' [] name
      rw [Text.splitOn_eq_self hslash] at hsplit
      exact hsplit
    simpa [isAbsolute, List.isPrefixOf, named] using hends.leadsTo

theorem leadsTo_push_cons {segment : Text} {above : List Text}
    (hslashes : ∀ piece ∈ segment :: above, '/' ∉ piece) (hsegment : segment ≠ [])
    (hrooted : (segment :: above).getLast? = some [] ↔ absolute = true) :
    ((ascend absolute (segment :: above)).push name).LeadsTo absolute (named (segment :: above))
      name := by
  have htext : Text.join ['/'] (segment :: above).reverse ≠ [] :=
    Text.join_ne_nil _ (List.mem_reverse.mpr List.mem_cons_self) hsegment
  have hclosed : ['/'].isSuffixOf (Text.join ['/'] (segment :: above).reverse) = false :=
    wantsDirectory_join above (hslashes segment List.mem_cons_self) hsegment
  have hjoined : (ascend absolute (segment :: above)).push name =
      ⟨Text.join ['/'] (name :: segment :: above).reverse⟩ := by
    rw [ascend_cons, push, if_neg (by simp [not_rooted hslash hempty]),
      if_neg (by simp only [List.isEmpty_eq_false_iff.mpr htext, hclosed]; simp),
      List.reverse_cons (a := name), Text.join_concat _ _ (by simp), List.append_assoc]
    rfl
  have hends : (Path.mk (Text.join ['/'] (name :: segment :: above).reverse)).Ends
      (segment :: above) name := by
    refine ⟨Text.splitOn_join (by simp) fun piece hpiece => ?_, hproper, hempty⟩
    rcases List.mem_cons.mp (List.mem_reverse.mp hpiece) with rfl | hpiece
    · exact hslash
    · exact hslashes piece hpiece
  have habsolute : (Path.mk (Text.join ['/'] (name :: segment :: above).reverse)).isAbsolute =
      absolute := by
    rw [Bool.eq_iff_iff, ← hends.rooted, List.getLast?_cons_of_ne_nil (by simp), hrooted]
  rw [hjoined]
  have hleads := hends.leadsTo
  rwa [habsolute] at hleads

end Push

theorem Ends.leadsTo_withFileName {path : Path} {above : List Text} {name other : Text}
    (h : path.Ends above name) (hslash : '/' ∉ other) (hproper : isDots other = false)
    (hempty : other ≠ []) :
    (path.withFileName other).LeadsTo path.isAbsolute (named (settle above)) other := by
  rw [withFileName, h.fileName?, h.parent?]
  rcases settle_cases above with hbase | ⟨segment, rest, hbase, hfiller⟩
  · rw [hbase]
    exact leadsTo_push_nil hslash hproper hempty path.isAbsolute
  · have hsuffix := settle_suffix above
    have hrooted := h.settled (by simp [hbase])
    rw [hbase] at hsuffix hrooted ⊢
    exact leadsTo_push_cons hslash hproper hempty
      (fun piece hpiece => h.slashless piece (List.mem_cons_of_mem _ (hsuffix.subset hpiece)))
      (ne_nil_of_not_filler hfiller) hrooted

end Path

namespace Storage

open ClassSkeleton.Tree

variable {path : Path} {above : List Text} {name : Text}

theorem ensureDirectory_run (path : Path) (tree : Tree) : (ensureDirectory path).run tree =
    if tree.exists? path && !tree.isDirectory path then (.error (.occupied path.text), tree)
    else if tree.exists? path then (.ok (), tree)
    else tree.makeDirectories path.ancestors := by
  have hrun : (ensureDirectory path).run tree =
      (if tree.exists? path && !tree.isDirectory path then
        (Script.done (.error (.occupied path.text)) : Script (Except IoCause Unit))
      else if tree.exists? path then .done (.ok ())
      else Script.operation (.makeDirectories path)).run tree := rfl
  rw [hrun]
  split
  · rfl
  · split <;> rfl

theorem walk_of_exists {tree : Tree} (h : tree.exists? path = true) :
    ∃ place, tree.walk (tree.startOf path) path.names = .ok place := by
  unfold exists? lookup at h
  cases hcheck : checkPath path with
  | error e => simp [hcheck, bind, Except.bind, Except.toBool] at h
  | ok u =>
    cases hwalk : tree.walk (tree.startOf path) path.names with
    | error e => simp [hcheck, hwalk, bind, Except.bind, Except.toBool] at h
    | ok place => exact ⟨place, rfl⟩

/-- If making the directory paves its way, so does making sure of it: a directory that is there
has an open way, and something else that is there is an obstacle behind an open one. -/
theorem ensureDirectory_paves {tree : Tree} (hcheck : checkPath path = .ok ())
    (h : Paves tree (tree.startOf path) path.names (tree.makeDirectories path.ancestors)) :
    Paves tree (tree.startOf path) path.names ((ensureDirectory path).run tree) := by
  rw [ensureDirectory_run]
  by_cases hexists : tree.exists? path = true
  · by_cases hdirectory : tree.isDirectory path = true
    · rw [if_neg (by simp [hdirectory]), if_pos hexists]
      exact ⟨rfl, (pave_of_opens (isDirectory_iff.mp hdirectory).2).symm, fun _ => rfl⟩
    · rw [if_pos (by simp [hexists, hdirectory])]
      obtain ⟨place, hwalk⟩ := walk_of_exists hexists
      have hopen : ¬ Opens tree.get? (tree.startOf path) path.names := fun hopen =>
        hdirectory (isDirectory_iff.mpr ⟨hcheck, hopen⟩)
      have hobstructed := obstructed_of_walk (by simp [hwalk]) hopen
      exact ⟨rfl, hobstructed.paved.symm, fun hp => absurd hp hobstructed.blocked⟩
  · rw [if_neg (by simp [hexists]), if_neg hexists]
    exact h

theorem ensureParent_nil (h : path.Ends above name) (hbase : Path.settle above = []) :
    ensureParent path =
      if path.isAbsolute then ensureDirectory ⟨['/']⟩ else (return .ok ()) := by
  rw [ensureParent, h.parent?, hbase]
  cases path.isAbsolute <;> rfl

theorem ensureParent_cons (h : path.Ends above name) {segment : Text} {rest : List Text}
    (hbase : Path.settle above = segment :: rest) (hsegment : segment ≠ []) :
    ensureParent path = ensureDirectory ⟨Text.join ['/'] (segment :: rest).reverse⟩ := by
  have htext : Text.join ['/'] (segment :: rest).reverse ≠ [] :=
    Text.join_ne_nil _ (List.mem_reverse.mpr List.mem_cons_self) hsegment
  rw [ensureParent, h.parent?, hbase, Path.ascend_cons]
  simp only [List.isEmpty_eq_false_iff.mpr htext, Bool.false_eq_true, if_false]

/-- Making sure of the parent of a path paves the way of the path. -/
theorem ensureParent_paves (h : path.Ends above name)
    (hground : Path.isGrounded path.isAbsolute above = true) (tree : Tree) :
    Paves tree (Path.origin tree.home path.isAbsolute) (Path.named above)
      ((ensureParent path).run tree) := by
  have hsame := Path.sameWay_settle above
  suffices hbase : Paves tree (Path.origin tree.home path.isAbsolute)
      (Path.named (Path.settle above)) ((ensureParent path).run tree) from
    ⟨hbase.home, by rw [hbase.view, hsame.pave],
      fun hp => hbase.done ((hsame.passable _ _).mpr hp)⟩
  have hclimb := h.isClimb hground
  have hmade := makeDirectories_upward hclimb tree
  rw [Path.upward_settle, ← h.ancestors_ascend] at hmade
  rcases Path.settle_cases above with hbase | ⟨segment, rest, hbase, hfiller⟩
  · rw [ensureParent_nil h hbase]
    rw [hbase] at hmade ⊢
    cases habsolute : path.isAbsolute with
    | false => exact ⟨rfl, (pave_eq_self (by simp [Path.named, reach])).symm, fun _ => rfl⟩
    | true =>
      rw [habsolute] at hmade
      exact ensureDirectory_paves (show checkPath ⟨['/']⟩ = .ok () from rfl) hmade
  · have hsegment := Path.ne_nil_of_not_filler hfiller
    rw [ensureParent_cons h hbase hsegment]
    rw [hbase] at hclimb hmade ⊢
    rw [Path.ascend_cons] at hmade
    have hnames : (Path.mk (Text.join ['/'] (segment :: rest).reverse)).names =
        Path.named (segment :: rest) := by
      rw [Path.names_join hclimb hsegment, Path.named_cons, if_neg (by simpa using hsegment)]
    have hstart : tree.startOf ⟨Text.join ['/'] (segment :: rest).reverse⟩ =
        Path.origin tree.home path.isAbsolute := by
      rw [Path.startOf_eq, Path.isAbsolute_join hclimb hsegment]
    have hensure := ensureDirectory_paves (Path.checkPath_join hclimb hsegment)
      (by rwa [hnames, hstart])
    rwa [hnames, hstart] at hensure

theorem ensureDirectory_refused {e : IoCause} {ancestors : List Path}
    (hcheck : checkPath path = .error e) (htext : path.text ≠ [])
    (hancestors : path.ancestors = path :: ancestors) (tree : Tree) :
    (ensureDirectory path).run tree = (.error e, tree) := by
  have hfound : e ≠ .notFound := by
    rintro rfl
    unfold checkPath at hcheck
    simp only [List.isEmpty_eq_false_iff.mpr htext, Bool.false_eq_true, if_false] at hcheck
    split at hcheck
    · simp at hcheck
    · split at hcheck <;> simp at hcheck
  have hexists : tree.exists? path = false := by
    simp [exists?, lookup, hcheck, bind, Except.bind, Except.toBool]
  have hdirectory : tree.isDirectory path = false := by
    rw [Bool.eq_false_iff]
    intro hd
    rw [(isDirectory_iff.mp hd).1] at hcheck
    cases hcheck
  have hmake : tree.makeDirectory path = .error e := by
    rw [makeDirectory, target_of_checkPath hcheck]
    rfl
  have hone : tree.makeOne path = (.error e, tree) := by simp [makeOne, hmake, hdirectory]
  rw [ensureDirectory_run, hexists, if_neg (by simp), if_neg (by simp), hancestors,
    makeDirectories_cons _ htext, hmake]
  split
  · rename_i hnot
    exact absurd (Except.error.inj hnot) hfound
  · exact hone

theorem ensureParent_error (h : path.Ends above name)
    (hground : Path.isGrounded path.isAbsolute above = false) (tree : Tree) :
    ∃ e, (ensureParent path).run tree = (.error e, tree) := by
  rw [Path.isGrounded, Bool.or_eq_false_iff, List.isEmpty_eq_false_iff] at hground
  obtain ⟨hbase, hcheck⟩ := hground
  rcases Path.settle_cases above with hnil | ⟨segment, rest, hcons, hfiller⟩
  · exact absurd hnil hbase
  have hsegment := Path.ne_nil_of_not_filler hfiller
  have hancestors := h.ancestors_ascend
  rw [← Path.upward_settle, hcons, Path.upward, if_neg (by simp [hfiller]), Path.ascend_cons]
    at hancestors
  rw [hcons, Path.ascend_cons] at hcheck
  rw [ensureParent_cons h hcons hsegment]
  cases hfails : checkPath ⟨Text.join ['/'] (segment :: rest).reverse⟩ with
  | ok u =>
    rw [hfails] at hcheck
    cases hcheck
  | error e =>
    exact ⟨e, ensureDirectory_refused hfails
      (Text.join_ne_nil _ (List.mem_reverse.mpr List.mem_cons_self) hsegment) hancestors tree⟩

end Storage

end ClassSkeleton
