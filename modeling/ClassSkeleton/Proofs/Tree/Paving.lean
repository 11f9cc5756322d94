import ClassSkeleton.Proofs.Tree.Trail

/-!
Making all directories on a way. It goes on until something stands in the way: a file, or a name
that is too long; what was made before stays. What a paving adds are directories where nothing
was, so it never makes or removes an obstacle, and two pavings can be done in either order.
-/
namespace ClassSkeleton.Tree

/-- A file stands at the place. -/
def isFileAt (view : View) (place : Place) : Bool :=
  match view place with
  | some (.file _) => true
  | _ => false

/-- The places of a trail that come before the first obstacle. -/
def reach (view : View) (here : Place) : List Text → List Place
  | [] => []
  | name :: names =>
    if nameLimit < Text.width name ∨ isFileAt view (onward here name) = true then []
    else onward here name :: reach view (onward here name) names

/-- Directories put on the way as far as it can be gone, from a start that is one. -/
def pave (view : View) (here : Place) (names : List Text) : View := fun place =>
  if view here = some .directory ∧ place ∈ reach view here names ∧ view place = none then
    some .directory
  else view place

/-- Directories put at places where nothing stands. -/
def overlay (places : List Place) (view : View) : View := fun place =>
  if place ∈ places ∧ view place = none then some .directory else view place

/-- Nothing stands in the way. -/
def Passable (view : View) (here : Place) (names : List Text) : Prop :=
  view here = some .directory ∧ reach view here names = trail here names

instance (view : View) (here : Place) (names : List Text) : Decidable (Passable view here names) :=
  inferInstanceAs (Decidable (_ ∧ _))

variable {view view' : View} {here place : Place} {names front back : List Text}

theorem isFileAt_iff :
    isFileAt view place = true ↔ ∃ content, view place = some (.file content) := by
  unfold isFileAt
  split
  · rename_i content h
    simp [h]
  · rename_i h
    simpa using h

theorem isFileAt_congr {other : View} (h : view place = other place) :
    isFileAt view place = isFileAt other place := by
  rw [isFileAt, isFileAt, h]

theorem isFileAt_eq_false_of_directory (h : view place = some .directory) :
    isFileAt view place = false := by
  simp [isFileAt, h]

theorem isFileAt_eq_false_of_none (h : view place = none) : isFileAt view place = false := by
  simp [isFileAt, h]

theorem reach_initial (view : View) (here : Place) (names : List Text) :
    reach view here names <+: trail here names := by
  induction names generalizing here with
  | nil => exact List.prefix_rfl
  | cons name names ih =>
    rw [reach]
    split
    · exact List.nil_prefix
    · exact (List.cons_prefix_cons).mpr ⟨rfl, ih _⟩

theorem mem_trail_of_mem_reach (h : place ∈ reach view here names) : place ∈ trail here names :=
  (reach_initial view here names).subset h

theorem reach_congr
    (h : ∀ place ∈ trail here names, isFileAt view' place = isFileAt view place) :
    reach view' here names = reach view here names := by
  induction names generalizing here with
  | nil => rfl
  | cons name names ih =>
    rw [reach, reach, h _ List.mem_cons_self,
      ih fun place hplace => h place (List.mem_cons_of_mem _ hplace)]

theorem not_isFileAt_of_mem_reach (h : place ∈ reach view here names) :
    isFileAt view place = false := by
  induction names generalizing here with
  | nil => simp [reach] at h
  | cons name names ih =>
    rw [reach] at h
    split at h
    · simp at h
    · rename_i hpass
      rcases List.mem_cons.mp h with rfl | h
      · simpa using fun hfile => hpass (Or.inr hfile)
      · exact ih h

theorem reach_append (view : View) (here : Place) (front back : List Text) :
    reach view here (front ++ back) =
      if reach view here front = trail here front then
        trail here front ++ reach view (seat here front) back
      else reach view here front := by
  induction front generalizing here with
  | nil => simp [reach, trail]
  | cons name front ih =>
    rw [List.cons_append, reach, reach, trail]
    split
    · rw [if_neg (by simp)]
    · rw [ih]
      simp only [List.cons.injEq, true_and]
      split
      · rfl
      · rfl

theorem mem_reach_append (h : place ∈ reach view here front) :
    place ∈ reach view here (front ++ back) := by
  rw [reach_append]
  split
  · exact List.mem_append_left _ (mem_trail_of_mem_reach h)
  · exact h

theorem pave_of_ne_none (h : view place ≠ none) : pave view here names place = view place := by
  rw [pave, if_neg fun hp => h hp.2.2]

theorem pave_cases (view : View) (here : Place) (names : List Text) (place : Place) :
    pave view here names place = view place ∨
      (pave view here names place = some .directory ∧ view place = none ∧
        view here = some .directory ∧ place ∈ reach view here names) := by
  unfold pave
  split
  · rename_i h
    exact Or.inr ⟨rfl, h.2.2, h.1, h.2.1⟩
  · exact Or.inl rfl

theorem pave_keeps (h : view place = some .directory) :
    pave view here names place = some .directory := by
  rw [pave_of_ne_none (by simp [h]), h]

theorem isFileAt_pave (view : View) (here : Place) (names : List Text) (place : Place) :
    isFileAt (pave view here names) place = isFileAt view place := by
  rcases pave_cases view here names place with h | ⟨h, hnone, -⟩
  · simp only [isFileAt, h]
  · rw [isFileAt_eq_false_of_directory h, isFileAt_eq_false_of_none hnone]

theorem pave_start (view : View) (here : Place) (names : List Text) :
    pave view here names here = some .directory ↔ view here = some .directory := by
  rcases pave_cases view here names here with h | ⟨h, -, hhere, -⟩
  · rw [h]
  · simp [h, hhere]

/-- A way that nothing stands in is open once it has been paved. -/
theorem Passable.opens_pave (h : Passable view here names) :
    Opens (pave view here names) here names := by
  intro place hplace
  rcases List.mem_cons.mp hplace with rfl | hplace
  · exact pave_keeps h.1
  · rw [← h.2] at hplace
    have hfile := not_isFileAt_of_mem_reach hplace
    rw [pave]
    split
    · rfl
    · rename_i hnot
      cases hentry : view place with
      | none => exact absurd ⟨h.1, hplace, hentry⟩ hnot
      | some entry =>
        cases entry with
        | directory => rfl
        | file content => simp [isFileAt, hentry] at hfile

theorem reach_of_opens (hopens : Opens view' here names)
    (hnames : ∀ place name, view' (place ++ [name]) = some .directory →
      Text.width name ≤ nameLimit)
    (hfiles : ∀ place, view' place = some .directory → isFileAt view place = false) :
    reach view here names = trail here names := by
  induction names generalizing here with
  | nil => rfl
  | cons name names ih =>
    obtain ⟨-, hrest⟩ := (opens_cons _ _ _ _).mp hopens
    have hwidth : Text.width name ≤ nameLimit := by
      by_cases hdots : isDots name = true
      · simp only [isDots, Bool.or_eq_true, beq_iff_eq] at hdots
        rcases hdots with rfl | rfl <;> decide
      · have hnext := hrest.start
        rw [onward_of_not_dots here (by simpa using hdots)] at hnext
        exact hnames here name hnext
    rw [reach, trail, if_neg, ih hrest]
    simp only [hfiles _ hrest.start, Bool.false_eq_true, or_false]
    omega

theorem passable_of_opens {tree : Tree} (hview : tree.get? = pave view here names)
    (h : Opens tree.get? here names) : Passable view here names := by
  refine ⟨(pave_start view here names).mp (hview ▸ h.start), ?_⟩
  refine reach_of_opens h (fun place name hname => width_le_of_get? hname) fun place hplace => ?_
  rw [← isFileAt_pave view here names, ← hview]
  exact isFileAt_eq_false_of_directory hplace

theorem pave_eq_self (h : ∀ place ∈ reach view here names, view place ≠ none) :
    pave view here names = view := by
  funext place
  rcases pave_cases view here names place with hp | ⟨-, hnone, -, hmem⟩
  · exact hp
  · exact absurd hnone (h place hmem)

theorem pave_of_opens (h : Opens view here names) : pave view here names = view := by
  refine pave_eq_self fun place hplace => ?_
  rw [h place (List.mem_cons_of_mem _ (mem_trail_of_mem_reach hplace))]
  simp

theorem pave_of_not_start (h : view here ≠ some .directory) : pave view here names = view := by
  funext place
  rw [pave, if_neg fun hp => h hp.1]

theorem passable_append (view : View) (here : Place) (front back : List Text) :
    Passable view here (front ++ back) ↔
      Passable view here front ∧
        reach view (seat here front) back = trail (seat here front) back := by
  unfold Passable
  rw [reach_append, trail_append]
  by_cases hfront : reach view here front = trail here front
  · rw [if_pos hfront, and_iff_left hfront, List.append_cancel_left_eq]
  · rw [if_neg hfront]
    refine iff_of_false (fun h => hfront ?_) fun h => hfront h.1.2
    have hlong : trail here front <+: reach view here front :=
      h.2 ▸ List.prefix_append (trail here front) _
    exact (reach_initial view here front).eq_of_length_le hlong.length_le

theorem pave_pave_append (view : View) (here : Place) (front back : List Text) :
    pave (pave view here front) here (front ++ back) = pave view here (front ++ back) := by
  have hreach : reach (pave view here front) here (front ++ back) =
      reach view here (front ++ back) :=
    reach_congr fun place _ => isFileAt_pave view here front place
  funext place
  rw [pave]
  simp only [hreach, pave_start]
  rcases pave_cases view here front place with hp | ⟨hp, hnone, hhere, hmem⟩
  · simp only [hp]
    rfl
  · rw [hp, if_neg (by simp), pave, if_pos ⟨hhere, mem_reach_append hmem, hnone⟩]

theorem pave_append_of_not_passable (h : ¬ Passable view here front) (back : List Text) :
    pave view here (front ++ back) = pave view here front := by
  by_cases hhere : view here = some .directory
  · have hreach : reach view here front ≠ trail here front := fun he => h ⟨hhere, he⟩
    funext place
    rw [pave, pave, reach_append, if_neg hreach]
  · rw [pave_of_not_start hhere, pave_of_not_start hhere]

/-- An obstacle stands in the way, and nothing is missing before it. -/
structure Obstructed (view : View) (here : Place) (names : List Text) : Prop where
  paved : pave view here names = view
  blocked : ¬ Passable view here names

theorem obstructed_of_not_start (h : view here ≠ some .directory) : Obstructed view here names :=
  ⟨pave_of_not_start h, fun hp => h hp.1⟩

theorem obstructed_of_obstacle {name : Text}
    (h : nameLimit < Text.width name ∨ isFileAt view (onward here name) = true) :
    Obstructed view here (name :: names) := by
  have hreach : reach view here (name :: names) = [] := by rw [reach, if_pos h]
  refine ⟨pave_eq_self (by simp [hreach]), fun hp => ?_⟩
  have htrail := hp.2
  rw [hreach, trail] at htrail
  exact absurd htrail.symm (List.cons_ne_nil _ _)

theorem Obstructed.cons {name : Text} (h : Obstructed view (onward here name) names)
    (hwidth : ¬ nameLimit < Text.width name) (hdir : view (onward here name) = some .directory) :
    Obstructed view here (name :: names) := by
  have hreach : reach view here (name :: names) =
      onward here name :: reach view (onward here name) names := by
    rw [reach, if_neg (by simp [hwidth, isFileAt_eq_false_of_directory hdir])]
  refine ⟨pave_eq_self fun place hplace => ?_, fun hp => h.blocked ⟨hdir, ?_⟩⟩
  · rw [hreach] at hplace
    rcases List.mem_cons.mp hplace with rfl | hplace
    · simp [hdir]
    · intro hnone
      have hshow := congrFun h.paved place
      rw [pave, if_pos ⟨hdir, hplace, hnone⟩, hnone] at hshow
      cases hshow
  · have htrail := hp.2
    rw [hreach, trail] at htrail
    exact (List.cons.inj htrail).2

theorem Obstructed.append (h : Obstructed view here front) (back : List Text) :
    Obstructed view here (front ++ back) :=
  ⟨by rw [pave_append_of_not_passable h.blocked, h.paved],
    fun hp => h.blocked ((passable_append _ _ _ _).mp hp).1⟩

theorem passable_pave (view : View) (here : Place) (front names : List Text) :
    Passable (pave view here front) here names ↔ Passable view here names := by
  have hreach : reach (pave view here front) here names = reach view here names :=
    reach_congr fun place _ => isFileAt_pave view here front place
  rw [Passable, Passable, hreach, pave_start]

theorem passable_of_tree_opens {tree : Tree} (h : Opens tree.get? here names) :
    Passable tree.get? here names :=
  passable_of_opens (pave_of_opens h).symm h

section Dot

/-! A single dot at the end of a way adds nothing to it. -/

theorem reach_dot (view : View) (h : view here = some .directory) :
    reach view here [['.']] = [here] := by
  rw [reach, onward, if_pos rfl, if_neg, reach]
  rw [isFileAt_eq_false_of_directory h]
  decide

theorem seat_dot (here : Place) (names : List Text) :
    seat here (names ++ [['.']]) = seat here names := by
  rw [seat_append]
  rfl

theorem opens_dot : Opens view here (names ++ [['.']]) ↔ Opens view here names := by
  rw [opens_append, opens_cons, opens_nil, onward, if_pos rfl, and_self, and_iff_left_of_imp]
  exact fun h => h.seat

theorem passable_dot : Passable view here (names ++ [['.']]) ↔ Passable view here names := by
  rw [passable_append, and_iff_left_of_imp]
  intro h
  rw [← reach_congr fun place _ => isFileAt_pave view here names place,
    reach_dot _ h.opens_pave.seat]
  simp [trail, onward]

theorem pave_dot : pave view here (names ++ [['.']]) = pave view here names := by
  by_cases h : Passable view here names
  · rw [← pave_pave_append, pave_of_opens (opens_dot.mpr h.opens_pave)]
  · exact pave_append_of_not_passable h _

end Dot

end ClassSkeleton.Tree
